import BoostOptional.Effect.Run
import BoostOptional.Effect.Silent

/-!
What holds when a program returns, and what holds when it throws. Nothing is said of a fault, so the
conditions under which the program does not fault are not needed here.
-/

namespace Effect
open Prog

variable {σ τ ε φ ψ α β : Type}

def Outcome.Returns (Q : α → σ → Prop) : Outcome σ ε φ α → Prop
  | .ok value s => Q value s
  | _ => True

theorem Outcome.Returns.mono {o : Outcome σ ε φ α} {Q R : α → σ → Prop} (returns : o.Returns Q)
    (weaker : ∀ value s, Q value s → R value s) : o.Returns R := by
  cases o with
  | ok value s => exact weaker value s returns
  | thrown | fault => trivial

theorem Outcome.Returns.ends {o : Outcome σ ε φ Unit} {Q : Unit → σ → Prop} {s : σ} (returns : o.Returns Q)
    (ends : o.Ends none s) : Q () s := by
  cases o with
  | ok => exact ends.2 ▸ returns
  | thrown => cases ends.1
  | fault => exact ends.elim

theorem returns_andThen {c : Prog σ ε φ α} {next : α → Prog σ ε φ β} {s : σ} {P : α → σ → Prop}
    {Q : β → σ → Prop} (first : (c s).Returns P) (rest : ∀ value t, P value t → (next value t).Returns Q) :
    (andThen c next s).Returns Q := by
  unfold andThen
  cases run : c s with
  | ok value t =>
    rw [run] at first
    exact rest value t first
  | thrown | fault => trivial

theorem returns_onThrow {c : Prog σ ε φ α} {cleanup : Prog σ ε φ Unit} {s : σ} {Q : α → σ → Prop}
    (body : (c s).Returns Q) : (onThrow c cleanup s).Returns Q := by
  unfold onThrow
  cases run : c s with
  | ok =>
    rw [run] at body
    exact body
  | fault => trivial
  | thrown e t =>
    dsimp only
    cases cleanup t <;> trivial

theorem returns_bracket {c cleanup : Prog σ ε φ Unit} {s : σ} {P Q : Unit → σ → Prop}
    (body : (c s).Returns P) (cleaned : ∀ value t, P value t → (cleanup t).Returns Q) :
    (bracket c cleanup s).Returns Q :=
  returns_andThen (returns_onThrow body) cleaned

theorem returns_ite {b : Bool} {c c' : Prog σ ε φ α} {s : σ} {Q : α → σ → Prop}
    (yes : b = true → (c s).Returns Q) (no : b = false → (c' s).Returns Q) :
    ((if b then c else c') s).Returns Q := by
  cases b with
  | true => exact yes rfl
  | false => exact no rfl

/-! ### Throws -/

def Outcome.Throws (E : ε → σ → Prop) : Outcome σ ε φ α → Prop
  | .thrown e s => E e s
  | _ => True

theorem Outcome.Returns.any (o : Outcome σ ε φ α) : o.Returns fun _ _ => True := by
  cases o <;> trivial

section Throws

variable {s : σ} {D E : ε → σ → Prop} {P : α → σ → Prop}

theorem Outcome.Throws.mono {o : Outcome σ ε φ α} (throws : o.Throws D) (weaker : ∀ e t, D e t → E e t) :
    o.Throws E := by
  cases o with
  | thrown e t => exact weaker e t throws
  | ok | fault => trivial

theorem Outcome.Throws.ends {o : Outcome σ ε φ Unit} {e : ε} {t : σ} (throws : o.Throws E)
    (ends : o.Ends (some e) t) : E e t := by
  cases o with
  | ok => cases ends.1
  | thrown =>
    obtain ⟨same, rfl⟩ := ends
    cases same
    exact throws
  | fault => exact ends.elim

theorem Silent.throws {c : Prog σ ε φ α} (silent : Silent c) : (c s).Throws E := by
  cases run : c s with
  | thrown e t => exact (silent s e t run).elim
  | ok | fault => trivial

theorem throws_andThen {c : Prog σ ε φ α} {next : α → Prog σ ε φ β} (first : (c s).Throws E)
    (returns : (c s).Returns P) (rest : ∀ value t, P value t → (next value t).Throws E) :
    (andThen c next s).Throws E := by
  unfold andThen
  cases run : c s with
  | ok value t =>
    rw [run] at returns
    exact rest value t returns
  | thrown e t =>
    rw [run] at first
    exact first
  | fault => trivial

theorem throws_onThrow {c : Prog σ ε φ α} {cleanup : Prog σ ε φ Unit} (body : (c s).Throws D)
    (silent : Silent cleanup) (cleaned : ∀ e t, D e t → (cleanup t).Returns fun _ => E e) :
    (onThrow c cleanup s).Throws E := by
  unfold onThrow
  cases run : c s with
  | ok | fault => trivial
  | thrown e t =>
    rw [run] at body
    have after := cleaned e t body
    dsimp only
    cases ended : cleanup t with
    | ok _ u =>
      rw [ended] at after
      exact after
    | thrown e' u => exact (silent t e' u ended).elim
    | fault => trivial

theorem throws_bracket {c cleanup : Prog σ ε φ Unit} (body : (c s).Throws D) (silent : Silent cleanup)
    (cleaned : ∀ e t, D e t → (cleanup t).Returns fun _ => E e) : (bracket c cleanup s).Throws E :=
  throws_andThen (throws_onThrow body silent cleaned) (.any _) fun _ _ _ => silent.throws

theorem throws_ite {b : Bool} {c c' : Prog σ ε φ α} (yes : b = true → (c s).Throws E)
    (no : b = false → (c' s).Throws E) : ((if b then c else c') s).Throws E := by
  cases b with
  | true => exact yes rfl
  | false => exact no rfl

end Throws

end Effect
