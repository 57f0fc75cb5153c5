import Mathlib.Order.Defs.Unbundled
import BoostOptional.Effect.Run

/-!
Relations between the state before a program and the state after it, returned or thrown. For a
preorder, that a program keeps to it follows from its parts.
-/

namespace Effect
open Prog

variable {σ ε φ α β : Type} {K : σ → σ → Prop}

def Outcome.Kept (K : σ → σ → Prop) (s : σ) : Outcome σ ε φ α → Prop
  | .ok _ t => K s t
  | .thrown _ t => K s t
  | .fault _ => True

/-- Whatever `c` does, the state after it is related to the state before it. -/
def Keeps (K : σ → σ → Prop) (c : Prog σ ε φ α) : Prop := ∀ s, (c s).Kept K s

theorem Outcome.Kept.ends {o : Outcome σ ε φ Unit} {s t : σ} {threw : Option ε} (kept : o.Kept K s)
    (ends : o.Ends threw t) : K s t := by
  cases o with
  | ok => exact ends.2 ▸ kept
  | thrown => exact ends.2 ▸ kept
  | fault => exact ends.elim

theorem Outcome.Kept.mono {L : σ → σ → Prop} {o : Outcome σ ε φ α} {s t : σ} (kept : o.Kept K t)
    (weaker : ∀ u, K t u → L s u) : o.Kept L s := by
  cases o with
  | ok _ u => exact weaker u kept
  | thrown _ u => exact weaker u kept
  | fault => trivial

theorem Outcome.Holds.kept {o : Outcome σ ε φ α} {s : σ} {Q : α → σ → Prop} {E : ε → σ → Prop}
    (h : o.Holds Q E) (returns : ∀ value t, Q value t → K s t) (throws : ∀ e t, E e t → K s t) :
    o.Kept K s := by
  cases o with
  | ok value t => exact returns value t h
  | thrown e t => exact throws e t h
  | fault => trivial

theorem keeps_pure [Std.Refl K] (value : α) : Keeps K (pure value : Prog σ ε φ α) := fun s => refl_of K s

theorem keeps_fail (f : φ) : Keeps K (fail f : Prog σ ε φ α) := fun _ => trivial

theorem keeps_ite {p : Bool} {c c' : Prog σ ε φ α} (yes : Keeps K c) (no : Keeps K c') :
    Keeps K (if p then c else c') := by
  cases p with
  | true => exact yes
  | false => exact no

section Sequence

variable [IsTrans σ K]

theorem Outcome.Kept.after {o : Outcome σ ε φ α} {s t : σ} (first : K s t) (rest : o.Kept K t) :
    o.Kept K s :=
  rest.mono fun _ next => trans_of K first next

/-- What comes next has to keep to the relation only from the states that `c` can return in. -/
theorem kept_andThen {c : Prog σ ε φ α} {next : α → Prog σ ε φ β} {s : σ} (first : (c s).Kept K s)
    (rest : ∀ value t, c s = .ok value t → (next value t).Kept K t) : (andThen c next s).Kept K s := by
  cases run : c s with
  | ok value t =>
    rw [run] at first
    rw [andThen_ok run]
    exact (rest value t run).after first
  | thrown e t =>
    rw [run] at first
    rw [andThen_thrown run]
    exact first
  | fault =>
    rw [andThen_fault run]
    trivial

theorem keeps_bind {c : Prog σ ε φ α} {next : α → Prog σ ε φ β} (first : Keeps K c)
    (rest : ∀ value, Keeps K (next value)) : Keeps K (c >>= next) :=
  fun s => kept_andThen (first s) fun value t _ => rest value t

theorem kept_onThrow {c : Prog σ ε φ α} {cleanup : Prog σ ε φ Unit} {s : σ} (body : (c s).Kept K s)
    (clean : Keeps K cleanup) : (onThrow c cleanup s).Kept K s := by
  unfold onThrow
  cases run : c s with
  | ok => rw [run] at body; exact body
  | fault => trivial
  | thrown e t =>
    rw [run] at body
    have cleaned := (clean t).after body
    dsimp only
    cases ended : cleanup t with
    | ok => rw [ended] at cleaned; exact cleaned
    | thrown => rw [ended] at cleaned; exact cleaned
    | fault => trivial

theorem kept_bracket {c cleanup : Prog σ ε φ Unit} {s : σ} (body : (c s).Kept K s)
    (clean : Keeps K cleanup) : (bracket c cleanup s).Kept K s :=
  kept_andThen (kept_onThrow body clean) fun _ t _ => clean t

end Sequence

end Effect
