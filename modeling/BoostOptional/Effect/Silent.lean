import BoostOptional.Effect.Program

/-!
Programs that throw from no state. Whether a program is one follows from its parts, without a look
at the states it goes through.
-/

namespace Effect
open Prog

variable {σ ε φ α β : Type}

def Silent (c : Prog σ ε φ α) : Prop := ∀ s e t, c s ≠ .thrown e t

theorem silent_pure (value : α) : Silent (pure value : Prog σ ε φ α) := nofun

theorem silent_fail (f : φ) : Silent (fail f : Prog σ ε φ α) := nofun

theorem silent_write (f : σ → σ) : Silent (write f : Prog σ ε φ Unit) := nofun

theorem silent_bind {c : Prog σ ε φ α} {next : α → Prog σ ε φ β} (first : Silent c)
    (rest : ∀ value, Silent (next value)) : Silent (c >>= next) := by
  intro s e t
  rw [bind_apply]
  cases run : c s with
  | ok value u =>
    rw [andThen_ok run]
    exact rest value u e t
  | thrown e' u => exact absurd run (first s e' u)
  | fault f =>
    rw [andThen_fault run]
    nofun

theorem silent_ite {p : Bool} {c c' : Prog σ ε φ α} (yes : p = true → Silent c)
    (no : p = false → Silent c') :
    Silent (if p then c else c') := by
  cases p with
  | true => exact yes rfl
  | false => exact no rfl

theorem silent_onThrow {c : Prog σ ε φ α} (body : Silent c) (cleanup : Prog σ ε φ Unit) :
    Silent (onThrow c cleanup) := by
  intro s e t
  cases run : c s with
  | ok value u =>
    rw [onThrow_ok run]
    nofun
  | thrown e' u => exact absurd run (body s e' u)
  | fault f =>
    unfold onThrow
    rw [run]
    nofun

theorem silent_bracket {c cleanup : Prog σ ε φ Unit} (body : Silent c) (clean : Silent cleanup) :
    Silent (bracket c cleanup) :=
  silent_bind (silent_onThrow body cleanup) fun _ => clean

end Effect
