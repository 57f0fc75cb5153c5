import BoostOptional.Effect.Silent
import BoostOptional.Effect.Run

/-!
Programs that are made of the actions of a smaller system. What such a program does is a run of
the smaller system, with the exceptions in the order in which the actions raised them. Whatever
holds of the runs of the actions then holds of every program made of them.
-/

namespace Effect
open Prog

variable {σ ε φ Act Op α β : Type}

def raised (events : List (Op × Option ε)) : List ε := events.filterMap Prod.snd

theorem raised_append (first second : List (Op × Option ε)) :
    raised (first ++ second) = raised first ++ raised second := List.filterMap_append

namespace System

theorem Run.append {M : System σ ε φ Op} {s t u : σ} {first second : List (Op × Option ε)}
    (run : M.Run s first t) (rest : M.Run t second u) : M.Run s (first ++ second) u := by
  induction run with
  | nil => exact rest
  | cons legal step _ ih => exact .cons legal step (ih rest)

theorem Run.unrestrict {M : System σ ε φ Op} {C : Op → σ → Prop} {s t : σ} {events : List (Op × Option ε)}
    (run : (M.restrict C).Run s events t) : M.Run s events t := by
  induction run with
  | nil s => exact .nil s
  | cons legal step _ ih => exact .cons legal.1 step ih

theorem Run.weaken {M : System σ ε φ Op} {C D : Op → σ → Prop} {s t : σ} {events : List (Op × Option ε)}
    (run : (M.restrict C).Run s events t) (weaker : ∀ op s, C op s → D op s) : (M.restrict D).Run s events t := by
  induction run with
  | nil s => exact .nil s
  | cons legal step _ ih => exact .cons ⟨legal.1, weaker _ _ legal.2⟩ step ih

theorem Run.strengthen {M : System σ ε φ Op} {C : Op → Prop} {s t : σ} {events : List (Op × Option ε)}
    (run : M.Run s events t) (all : ∀ event ∈ events, C event.1) : (M.restrict fun op _ => C op).Run s events t := by
  induction run with
  | nil s => exact .nil s
  | cons legal step _ ih => exact .cons ⟨legal, all _ (.head _)⟩ step (ih fun event member => all event (.tail _ member))

/-- A run from `s` to `t` of actions in `P`, which raises `es`. -/
def Path (M : System σ ε φ Act) (P : Act → Prop) (s : σ) (es : List ε) (t : σ) : Prop :=
  ∃ acts, M.Run s acts t ∧ raised acts = es ∧ ∀ act ∈ acts, P act.1

variable {M : System σ ε φ Act} {P Q : Act → Prop} {s t u : σ} {es es' : List ε}

theorem Path.refl (s : σ) : M.Path P s [] s := ⟨[], .nil s, rfl, nofun⟩

theorem Path.trans (first : M.Path P s es t) (second : M.Path P t es' u) : M.Path P s (es ++ es') u := by
  obtain ⟨acts, run, rfl, within⟩ := first
  obtain ⟨acts', run', rfl, within'⟩ := second
  refine ⟨acts ++ acts', run.append run', raised_append acts acts', fun act member => ?_⟩
  rcases List.mem_append.mp member with here | there
  · exact within act here
  · exact within' act there

theorem Path.mono (path : M.Path P s es t) (weaker : ∀ act, P act → Q act) : M.Path Q s es t := by
  obtain ⟨acts, run, raises, within⟩ := path
  exact ⟨acts, run, raises, fun act member => weaker act.1 (within act member)⟩

theorem Path.single {act : Act} {threw : Option ε} (allowed : P act) (legal : M.legal act s)
    (ends : (M.exec act s).Ends threw t) : M.Path P s threw.toList t := by
  refine ⟨[(act, threw)], .cons legal ends (.nil t), ?_, ?_⟩
  · cases threw <;> rfl
  · intro other member
    rw [List.mem_singleton.mp member]
    exact allowed

/-- What every action in `P` keeps, a path keeps. -/
theorem Path.invariant {I : σ → Prop} (path : M.Path P s es t)
    (keeps : ∀ act s threw t, P act → M.legal act s → (M.exec act s).Ends threw t → I s → I t)
    (start : I s) : I t := by
  obtain ⟨acts, run, raises, within⟩ := path
  clear raises
  induction run with
  | nil => exact start
  | cons legal ends _ ih =>
    have next := keeps _ _ _ _ (within _ (.head _)) legal ends start
    exact ih next fun act member => within act (.tail _ member)

end System

/-- The outcome of a program that is made of the actions in `P`. -/
def Outcome.MadeOf (M : System σ ε φ Act) (P : Act → Prop) (s : σ) : Outcome σ ε φ α → Prop
  | .ok _ t => M.Path P s [] t
  | .thrown e t => M.Path P s [e] t
  | .fault _ => True

def MadeOf (M : System σ ε φ Act) (P : Act → Prop) (c : Prog σ ε φ α) : Prop :=
  ∀ s, (c s).MadeOf M P s

section Rules

variable {M : System σ ε φ Act} {P Q : Act → Prop}

theorem MadeOf.mono {c : Prog σ ε φ α} (made : MadeOf M P c) (weaker : ∀ act, P act → Q act) :
    MadeOf M Q c := by
  intro s
  have path := made s
  cases run : c s with
  | ok value t => rw [run] at path; exact path.mono weaker
  | thrown e t => rw [run] at path; exact path.mono weaker
  | fault => trivial

theorem Outcome.MadeOf.ends {o : Outcome σ ε φ Unit} {s t : σ} {threw : Option ε}
    (made : o.MadeOf M P s) (ends : o.Ends threw t) : M.Path P s threw.toList t := by
  cases o with
  | ok value u =>
    obtain ⟨rfl, rfl⟩ := ends
    exact made
  | thrown e u =>
    obtain ⟨rfl, rfl⟩ := ends
    exact made
  | fault => exact ends.elim

theorem madeOf_exec {M : System σ ε φ Act} (act : Act) (allowed : P act) (legal : ∀ s, M.legal act s) :
    MadeOf M P (M.exec act) := by
  intro s
  cases run : M.exec act s with
  | ok value t =>
    have ends : (M.exec act s).Ends none t := by
      rw [run]
      exact ⟨rfl, rfl⟩
    exact .single allowed (legal s) ends
  | thrown e t =>
    have ends : (M.exec act s).Ends (some e) t := by
      rw [run]
      exact ⟨rfl, rfl⟩
    exact .single allowed (legal s) ends
  | fault => trivial

theorem madeOf_pure (value : α) : MadeOf M P (pure value : Prog σ ε φ α) := fun s => .refl s

theorem madeOf_fail (f : φ) : MadeOf M P (fail f : Prog σ ε φ α) := fun _ => trivial

/-- A program that reads the state and may go wrong. -/
theorem madeOf_reads {c : Prog σ ε φ α} (reads : ∀ s, (∃ value, c s = .ok value s) ∨ ∃ f, c s = .fault f) :
    MadeOf M P c := by
  intro s
  rcases reads s with ⟨value, run⟩ | ⟨f, run⟩
  · rw [run]
    exact .refl s
  · rw [run]
    trivial

theorem madeOf_bind {c : Prog σ ε φ α} {next : α → Prog σ ε φ β} (first : MadeOf M P c)
    (rest : ∀ value, MadeOf M P (next value)) : MadeOf M P (c >>= next) := by
  intro s
  have path := first s
  rw [bind_apply]
  cases run : c s with
  | ok value t =>
    rw [andThen_ok run]
    rw [run] at path
    have tail := rest value t
    cases ran : next value t with
    | ok value' u => rw [ran] at tail; exact path.trans tail
    | thrown e u => rw [ran] at tail; exact path.trans tail
    | fault => trivial
  | thrown e t =>
    rw [andThen_thrown run]
    rw [run] at path
    exact path
  | fault =>
    rw [andThen_fault run]
    trivial

theorem madeOf_ite {p : Bool} {c c' : Prog σ ε φ α} (yes : p = true → MadeOf M P c)
    (no : p = false → MadeOf M P c') : MadeOf M P (if p then c else c') := by
  cases p with
  | true => exact yes rfl
  | false => exact no rfl

/-- Cleanup that does not throw keeps the exception that it was run for. -/
theorem madeOf_onThrow {c : Prog σ ε φ α} {cleanup : Prog σ ε φ Unit} (body : MadeOf M P c)
    (clean : MadeOf M P cleanup) (silent : Silent cleanup) : MadeOf M P (onThrow c cleanup) := by
  intro s
  have path := body s
  unfold onThrow
  cases run : c s with
  | ok value t => rw [run] at path; exact path
  | fault => trivial
  | thrown e t =>
    rw [run] at path
    have cleaned := clean t
    dsimp only
    cases ended : cleanup t with
    | ok value u =>
      rw [ended] at cleaned
      exact path.trans cleaned
    | thrown e' u => exact (silent t e' u ended).elim
    | fault => trivial

theorem madeOf_bracket {c cleanup : Prog σ ε φ Unit} (body : MadeOf M P c) (clean : MadeOf M P cleanup)
    (silent : Silent cleanup) : MadeOf M P (bracket c cleanup) :=
  madeOf_bind (madeOf_onThrow body clean silent) fun _ => clean

/-- A run of operations made of actions is a run of the actions, with the same exceptions in the
same order. -/
theorem System.Run.decompose {N : System σ ε φ Op} {allowed : Op → Act → Prop} {s t : σ}
    {events : List (Op × Option ε)} (made : ∀ op, MadeOf M (allowed op) (N.exec op))
    (run : N.Run s events t) :
    M.Path (fun act => ∃ event ∈ events, allowed event.1 act) s (raised events) t := by
  induction run with
  | nil s => exact .refl s
  | @cons s t u op threw rest legal ends tail ih =>
    have first : M.Path (fun act => ∃ event ∈ (op, threw) :: rest, allowed event.1 act) s threw.toList t :=
      ((made op s).ends ends).mono fun act permitted => ⟨_, .head _, permitted⟩
    have second : M.Path (fun act => ∃ event ∈ (op, threw) :: rest, allowed event.1 act) t
        (raised rest) u := by
      refine ih.mono fun act permitted => ?_
      obtain ⟨event, member, permitted⟩ := permitted
      exact ⟨event, .tail _ member, permitted⟩
    have both := first.trans second
    cases threw <;> exact both

end Rules

end Effect
