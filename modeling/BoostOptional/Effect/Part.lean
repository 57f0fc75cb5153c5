import BoostOptional.Effect.Run

/-!
Programs on a part of the state. The rest of the state is not read and stays as it is.
-/

namespace Effect

variable {σ τ ε φ ψ α : Type}

structure Part (σ τ : Type) where
  get : σ → τ
  put : σ → τ → σ
  get_put : ∀ s t, get (put s t) = t

namespace Part

def whole : Part σ σ := ⟨id, fun _ t => t, fun _ _ => rfl⟩

variable (P : Part σ τ)

/-- `c` on the part `P`. `blame` names its faults. -/
def run (blame : φ → ψ) (c : Prog τ ε φ α) : Prog σ ε ψ α := fun s =>
  match c (P.get s) with
  | .ok value t => .ok value (P.put s t)
  | .thrown e t => .thrown e (P.put s t)
  | .fault f => .fault (blame f)

variable {P} {blame : φ → ψ} {c : Prog τ ε φ α} {s : σ} {t : τ}

theorem run_ok {value : α} (h : c (P.get s) = .ok value t) : P.run blame c s = .ok value (P.put s t) := by
  simp only [run, h]

theorem run_thrown {e : ε} (h : c (P.get s) = .thrown e t) : P.run blame c s = .thrown e (P.put s t) := by
  simp only [run, h]

theorem run_fault {f : φ} (h : c (P.get s) = .fault f) : P.run blame c s = .fault (blame f) := by
  simp only [run, h]

/-- An exit of `c` on the part is an exit of `c`. -/
theorem run_ends {c : Prog τ ε φ Unit} {raised : Option ε} {s' : σ} :
    (P.run blame c s).Ends raised s' ↔ ∃ t, (c (P.get s)).Ends raised t ∧ P.put s t = s' := by
  unfold run
  cases c (P.get s) with
  | ok value t => simp [Outcome.Ends, and_assoc]
  | thrown e t => simp [Outcome.Ends, and_assoc]
  | fault f => simp [Outcome.Ends]

theorem run_holds {Q : α → σ → Prop} {E : ε → σ → Prop} : (P.run blame c s).Holds Q E ↔
    (c (P.get s)).Holds (fun value t => Q value (P.put s t)) fun e t => E e (P.put s t) := by
  unfold run
  cases c (P.get s) <;> exact Iff.rfl

end Part

end Effect
