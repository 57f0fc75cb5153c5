import Mathlib.Tactic.Common

/-!
Programs that read and write a state, may throw, and may go wrong. A thrown exception leaves
the state as it was at the throw; a fault has no state after it. This file defines the programs,
their exception handlers, and the two judgements the proofs use: `Outcome.Holds` for one program
and `Refines` for a pair.
-/

namespace Effect

variable {σ τ ε φ ψ α β : Type}

inductive Outcome (σ ε φ α : Type) where
  | ok (value : α) (state : σ)
  | thrown (exception : ε) (state : σ)
  | fault (reason : φ)
  deriving DecidableEq, Repr

def Outcome.mapState (f : σ → σ) : Outcome σ ε φ α → Outcome σ ε φ α
  | .ok value s => .ok value (f s)
  | .thrown e s => .thrown e (f s)
  | .fault r => .fault r

/-- A program over the state `σ` that may throw `ε` and may go wrong with `φ`. -/
def Prog (σ ε φ α : Type) : Type := σ → Outcome σ ε φ α

namespace Prog

def ret (value : α) : Prog σ ε φ α := fun s => .ok value s

def andThen (c : Prog σ ε φ α) (next : α → Prog σ ε φ β) : Prog σ ε φ β := fun s =>
  match c s with
  | .ok value s => next value s
  | .thrown e s => .thrown e s
  | .fault f => .fault f

instance : Monad (Prog σ ε φ) where
  pure := ret
  bind := andThen

def raise (e : ε) : Prog σ ε φ α := fun s => .thrown e s

def fail (f : φ) : Prog σ ε φ α := fun _ => .fault f

def read (f : σ → α) : Prog σ ε φ α := fun s => .ok (f s) s

def write (f : σ → σ) : Prog σ ε φ Unit := fun s => .ok () (f s)

/-- Unwinding: when `c` throws, `cleanup` runs before the exception goes on. -/
def onThrow (c : Prog σ ε φ α) (cleanup : Prog σ ε φ Unit) : Prog σ ε φ α := fun s =>
  match c s with
  | .thrown e s =>
    match cleanup s with
    | .ok _ s => .thrown e s
    | .thrown e s => .thrown e s
    | .fault f => .fault f
  | other => other

/-- Scope exit: `cleanup` runs whether `c` returns or throws. -/
def bracket (c : Prog σ ε φ Unit) (cleanup : Prog σ ε φ Unit) : Prog σ ε φ Unit :=
  andThen (onThrow c cleanup) fun _ => cleanup

end Prog

open Prog

@[simp] theorem pure_apply (value : α) (s : σ) : (pure value : Prog σ ε φ α) s = .ok value s := rfl

@[simp] theorem bind_apply (c : Prog σ ε φ α) (next : α → Prog σ ε φ β) (s : σ) :
    (c >>= next) s = andThen c next s := rfl

@[simp] theorem raise_apply (e : ε) (s : σ) : (raise e : Prog σ ε φ α) s = .thrown e s := rfl

@[simp] theorem fail_apply (f : φ) (s : σ) : (fail f : Prog σ ε φ α) s = .fault f := rfl

@[simp] theorem read_apply (f : σ → α) (s : σ) : (read f : Prog σ ε φ α) s = .ok (f s) s := rfl

@[simp] theorem write_apply (f : σ → σ) (s : σ) : (write f : Prog σ ε φ Unit) s = .ok () (f s) := rfl

theorem andThen_ok {c : Prog σ ε φ α} {s t : σ} {value : α} (h : c s = .ok value t)
    (next : α → Prog σ ε φ β) : andThen c next s = next value t := by
  simp [andThen, h]

theorem andThen_thrown {c : Prog σ ε φ α} {s t : σ} {e : ε} (h : c s = .thrown e t)
    (next : α → Prog σ ε φ β) : andThen c next s = .thrown e t := by
  simp [andThen, h]

theorem andThen_fault {c : Prog σ ε φ α} {s : σ} {f : φ} (h : c s = .fault f)
    (next : α → Prog σ ε φ β) : andThen c next s = .fault f := by
  simp [andThen, h]

theorem bind_return (c : Prog σ ε φ Unit) : (c >>= fun _ => pure ()) = c := by
  funext s
  simp only [bind_apply, andThen, pure_apply]
  cases c s <;> rfl

theorem onThrow_ok {c : Prog σ ε φ α} {s t : σ} {value : α} (h : c s = .ok value t)
    (cleanup : Prog σ ε φ Unit) : onThrow c cleanup s = .ok value t := by
  simp [onThrow, h]

theorem onThrow_thrown {c cleanup : Prog σ ε φ Unit} {s t u : σ} {e : ε} (h : c s = .thrown e t)
    (clean : cleanup t = .ok () u) : onThrow c cleanup s = .thrown e u := by
  simp [onThrow, h, clean]

theorem bracket_ok {c : Prog σ ε φ Unit} {s t : σ} (h : c s = .ok () t) (cleanup : Prog σ ε φ Unit) :
    bracket c cleanup s = cleanup t := by
  rw [bracket, andThen_ok (onThrow_ok h cleanup)]

/-! ### One program -/

/-- The outcome is not a fault, a return satisfies `Q` and a throw satisfies `E`. -/
def Outcome.Holds (Q : α → σ → Prop) (E : ε → σ → Prop) : Outcome σ ε φ α → Prop
  | .ok value s => Q value s
  | .thrown e s => E e s
  | .fault _ => False

section Holds

variable {Q Q' : α → σ → Prop} {E E' : ε → σ → Prop}

@[simp] theorem holds_ok (value : α) (s : σ) :
    (Outcome.ok value s : Outcome σ ε φ α).Holds Q E ↔ Q value s := Iff.rfl

@[simp] theorem holds_thrown (e : ε) (s : σ) :
    (Outcome.thrown e s : Outcome σ ε φ α).Holds Q E ↔ E e s := Iff.rfl

@[simp] theorem holds_fault (f : φ) : (Outcome.fault f : Outcome σ ε φ α).Holds Q E ↔ False := Iff.rfl

theorem Outcome.Holds.mono {o : Outcome σ ε φ α} (h : o.Holds Q E)
    (returns : ∀ value s, Q value s → Q' value s) (throws : ∀ e s, E e s → E' e s) : o.Holds Q' E' := by
  cases o with
  | ok value s => exact returns value s h
  | thrown e s => exact throws e s h
  | fault => exact h.elim

theorem holds_andThen {c : Prog σ ε φ α} {next : α → Prog σ ε φ β} {s : σ} {R : β → σ → Prop}
    (first : (c s).Holds Q E) (rest : ∀ value t, Q value t → (next value t).Holds R E) :
    (andThen c next s).Holds R E := by
  unfold andThen
  cases run : c s with
  | ok value t => exact rest value t (by simpa [run] using first)
  | thrown e t => simpa [run] using first
  | fault f => simp [run] at first

theorem holds_onThrow {c : Prog σ ε φ α} {cleanup : Prog σ ε φ Unit} {s : σ} (body : (c s).Holds Q E)
    (clean : ∀ e t, E e t → (cleanup t).Holds (fun _ => E' e) E') :
    (onThrow c cleanup s).Holds Q E' := by
  unfold onThrow
  cases run : c s with
  | ok value t => simpa [run] using body
  | fault f => simp [run] at body
  | thrown e t =>
    have cleaned := clean e t (by simpa [run] using body)
    dsimp only
    cases ended : cleanup t with
    | ok value u => simpa [ended] using cleaned
    | thrown e u => simpa [ended] using cleaned
    | fault f => simp [ended] at cleaned

theorem holds_bracket {c cleanup : Prog σ ε φ Unit} {s : σ} {P R : Unit → σ → Prop}
    (body : (c s).Holds P E)
    (thrown : ∀ e t, E e t → (cleanup t).Holds (fun _ => E' e) E')
    (returned : ∀ value t, P value t → (cleanup t).Holds R E') : (bracket c cleanup s).Holds R E' :=
  holds_andThen (holds_onThrow body thrown) returned

end Holds

/-! ### Two programs -/

/-- Two outcomes match: same return value or same exception, in states related by `R`. An
abstract fault asks for nothing; a concrete fault needs one. -/
def Outcome.Match (R : σ → τ → Prop) : Outcome σ ε φ α → Outcome τ ε ψ α → Prop
  | .ok value s, .ok value' t => value = value' ∧ R s t
  | .thrown e s, .thrown e' t => e = e' ∧ R s t
  | _, .fault _ => True
  | _, _ => False

/-- `c` does what `a` does, on states related by `R`, unless `a` faults. -/
def Refines (R : σ → τ → Prop) (c : Prog σ ε φ α) (a : Prog τ ε ψ α) : Prop :=
  ∀ s t, R s t → (c s).Match R (a t)

section Refines

variable {R : σ → τ → Prop}

theorem refines_pure (value : α) :
    Refines R (pure value : Prog σ ε φ α) (pure value : Prog τ ε ψ α) :=
  fun _ _ related => ⟨rfl, related⟩

theorem match_fault (o : Outcome σ ε φ α) (f : ψ) : o.Match R (.fault f : Outcome τ ε ψ α) := by
  cases o <;> trivial

theorem refines_bind {c : Prog σ ε φ α} {a : Prog τ ε ψ α} {next : α → Prog σ ε φ β}
    {next' : α → Prog τ ε ψ β} (first : Refines R c a)
    (rest : ∀ value, Refines R (next value) (next' value)) : Refines R (c >>= next) (a >>= next') := by
  intro s t related
  have matched := first s t related
  simp only [bind_apply, andThen]
  cases ha : a t with
  | fault => exact match_fault _ _
  | ok value t =>
    cases hc : c s <;> simp only [hc, ha, Outcome.Match] at matched
    obtain ⟨rfl, related⟩ := matched
    exact rest _ _ _ related
  | thrown e t =>
    cases hc : c s <;> simp only [hc, ha, Outcome.Match] at matched
    exact matched

theorem refines_ite {b : Bool} {c c' : Prog σ ε φ α} {a a' : Prog τ ε ψ α}
    (yes : Refines R c a) (no : Refines R c' a') :
    Refines R (if b then c else c') (if b then a else a') := by
  cases b
  · exact no
  · exact yes

theorem refines_onThrow {c : Prog σ ε φ α} {a : Prog τ ε ψ α} {cleanup : Prog σ ε φ Unit}
    {cleanup' : Prog τ ε ψ Unit} (body : Refines R c a) (clean : Refines R cleanup cleanup') :
    Refines R (onThrow c cleanup) (onThrow a cleanup') := by
  intro s t related
  have matched := body s t related
  simp only [onThrow]
  cases ha : a t with
  | fault => exact match_fault _ _
  | ok value t =>
    cases hc : c s <;> simp only [hc, ha, Outcome.Match] at matched
    exact matched
  | thrown e t =>
    cases hc : c s <;> simp only [hc, ha, Outcome.Match] at matched
    rename_i u
    obtain ⟨rfl, related⟩ := matched
    have cleaned := clean _ _ related
    dsimp only
    cases ht : cleanup' t with
    | fault => exact match_fault _ _
    | ok => cases hu : cleanup u <;> simp only [hu, ht, Outcome.Match] at cleaned; exact ⟨rfl, cleaned.2⟩
    | thrown => cases hu : cleanup u <;> simp only [hu, ht, Outcome.Match] at cleaned; exact cleaned

theorem refines_bracket {c cleanup : Prog σ ε φ Unit} {a cleanup' : Prog τ ε ψ Unit}
    (body : Refines R c a) (clean : Refines R cleanup cleanup') :
    Refines R (bracket c cleanup) (bracket a cleanup') :=
  refines_bind (refines_onThrow body clean) fun _ => clean

/-- What holds of the abstract outcome holds of the concrete one, read through the relation. -/
theorem Outcome.Match.holds {o : Outcome σ ε φ α} {o' : Outcome τ ε ψ α} {Q : α → τ → Prop}
    {E : ε → τ → Prop} (matched : o.Match R o') (h : o'.Holds Q E) :
    o.Holds (fun value s => ∃ t, R s t ∧ Q value t) (fun e s => ∃ t, R s t ∧ E e t) := by
  cases o' with
  | fault => exact h.elim
  | ok =>
    cases o <;> simp only [Outcome.Match] at matched
    obtain ⟨rfl, related⟩ := matched
    exact ⟨_, related, h⟩
  | thrown =>
    cases o <;> simp only [Outcome.Match] at matched
    obtain ⟨rfl, related⟩ := matched
    exact ⟨_, related, h⟩

theorem Outcome.Match.mono {S : σ → τ → Prop} {o : Outcome σ ε φ α} {o' : Outcome τ ε ψ α}
    (matched : o.Match R o')
    (weaker : ∀ s t, R s t → S s t) : o.Match S o' := by
  cases o' with
  | fault => exact match_fault _ _
  | ok | thrown =>
    cases o <;> simp only [Outcome.Match] at matched
    exact ⟨matched.1, weaker _ _ matched.2⟩

theorem Outcome.Match.strengthen {P : τ → Prop} {o : Outcome σ ε φ α} {o' : Outcome τ ε ψ α}
    (matched : o.Match R o')
    (h : o'.Holds (fun _ => P) (fun _ => P)) : o.Match (fun s t => R s t ∧ P t) o' := by
  cases o' with
  | fault => exact match_fault _ _
  | ok | thrown =>
    cases o <;> simp only [Outcome.Match] at matched
    exact ⟨matched.1, matched.2, h⟩

end Refines

end Effect
