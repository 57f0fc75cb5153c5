import BoostOptional.Effect.Program

/-!
Runs of a system: a finite sequence of operations, each of which returns or throws to its caller,
who goes on with the next. An operation has a condition on the state under which a caller may
call it. This file packages the two inductions over runs, for an invariant and for a simulation.
-/

namespace Effect

variable {σ τ ε φ ψ Op : Type}

/-- What the caller of an operation sees: the exception, if one came out, and the state. -/
def Outcome.Ends : Outcome σ ε φ Unit → Option ε → σ → Prop
  | .ok _ s, raised, t => raised = none ∧ s = t
  | .thrown e s, raised, t => raised = some e ∧ s = t
  | .fault _, _, _ => False

theorem Outcome.Ends.holds {o : Outcome σ ε φ Unit} {raised : Option ε} {s : σ} {P : σ → Prop}
    (ends : o.Ends raised s) (h : o.Holds (fun _ => P) (fun _ => P)) : P s := by
  cases o with
  | ok => exact ends.2 ▸ h
  | thrown => exact ends.2 ▸ h
  | fault => exact ends.elim

theorem Outcome.Ends.returned {o : Outcome σ ε φ Unit} {s : σ} {Q : σ → Prop} {E : ε → σ → Prop}
    (ends : o.Ends none s) (h : o.Holds (fun _ => Q) E) : Q s := by
  cases o with
  | ok => exact ends.2 ▸ h
  | thrown => cases ends.1
  | fault => exact ends.elim

theorem Outcome.Ends.threw {o : Outcome σ ε φ Unit} {e : ε} {s : σ} {Q : Unit → σ → Prop} {E : σ → Prop}
    (ends : o.Ends (some e) s) (h : o.Holds Q (fun _ => E)) : E s := by
  cases o with
  | ok => cases ends.1
  | thrown => exact ends.2 ▸ h
  | fault => exact ends.elim

structure System (σ ε φ Op : Type) where
  exec : Op → Prog σ ε φ Unit
  legal : Op → σ → Prop

def System.restrict (M : System σ ε φ Op) (C : Op → σ → Prop) : System σ ε φ Op where
  exec := M.exec
  legal op s := M.legal op s ∧ C op s

/-- A finite run, with the exception each operation raised. -/
inductive System.Run (M : System σ ε φ Op) : σ → List (Op × Option ε) → σ → Prop where
  | nil (s : σ) : M.Run s [] s
  | cons {s t u : σ} {op : Op} {raised : Option ε} {rest : List (Op × Option ε)}
      (legal : M.legal op s) (step : (M.exec op s).Ends raised t) (tail : M.Run t rest u) :
      M.Run s ((op, raised) :: rest) u

/-- A property that every legal operation keeps, on return and on throw, holds along every run. -/
theorem System.Run.invariant {M : System σ ε φ Op} {I : σ → Prop}
    (keeps : ∀ op s, M.legal op s → I s → (M.exec op s).Holds (fun _ => I) (fun _ => I))
    {s t : σ} {events : List (Op × Option ε)} (run : M.Run s events t) (start : I s) : I t := by
  induction run with
  | nil => exact start
  | cons legal step _ ih => exact ih (step.holds (keeps _ _ legal start))

/-! ### Two systems -/

section Two

variable {M : System σ ε φ Op} {N : System τ ε ψ Op} {R : σ → τ → Prop} {s s' : σ} {t t' : τ}
    {raised : Option ε}

theorem Outcome.Match.ends {o : Outcome σ ε φ Unit} {o' : Outcome τ ε ψ Unit} (matched : o.Match R o')
    (ends : o'.Ends raised t') : ∃ s', o.Ends raised s' ∧ R s' t' := by
  cases o' with
  | fault => exact ends.elim
  | ok value u =>
    cases o <;> simp only [Outcome.Match] at matched
    obtain ⟨rfl, rfl⟩ := ends
    exact ⟨_, ⟨rfl, rfl⟩, matched.2⟩
  | thrown e u =>
    cases o <;> simp only [Outcome.Match] at matched
    obtain ⟨rfl, rfl⟩ := ends
    obtain ⟨rfl, related⟩ := matched
    exact ⟨_, ⟨rfl, rfl⟩, related⟩

theorem Outcome.Match.flip {o : Outcome σ ε φ Unit} {o' : Outcome τ ε ψ Unit} (matched : o.Match R o')
    (safe : o'.Holds (fun _ _ => True) (fun _ _ => True)) : o'.Match (fun t s => R s t) o := by
  cases o' with
  | fault => exact safe.elim
  | ok =>
    cases o <;> simp only [Outcome.Match] at matched
    exact ⟨rfl, matched.2⟩
  | thrown =>
    cases o <;> simp only [Outcome.Match] at matched
    exact ⟨matched.1.symm, matched.2⟩

/-- When each step of `M` can be followed by `N`, so can a run: the same exceptions at the same steps, and
related states throughout. -/
theorem System.Run.follow {events : List (Op × Option ε)}
    (step : ∀ op s t raised s', R s t → M.legal op s → (M.exec op s).Ends raised s' →
      N.legal op t ∧ ∃ t', (N.exec op t).Ends raised t' ∧ R s' t')
    (run : M.Run s events s') (related : R s t) : ∃ t', N.Run t events t' ∧ R s' t' := by
  induction run generalizing t with
  | nil => exact ⟨t, .nil t, related⟩
  | cons legal ends tail ih =>
    obtain ⟨legal', u, ends', next⟩ := step _ _ _ _ _ related legal ends
    obtain ⟨t', run', last⟩ := ih next
    exact ⟨t', .cons legal' ends' run', last⟩

/-- Operations that match on related states, without abstract faults, have matching runs. -/
theorem System.Run.simulate
    (step : ∀ op s t, R s t → M.legal op s → N.legal op t ∧
      (N.exec op t).Holds (fun _ _ => True) (fun _ _ => True) ∧ (M.exec op s).Match R (N.exec op t))
    {events : List (Op × Option ε)} (run : M.Run s events s') (related : R s t) :
    ∃ t', N.Run t events t' ∧ R s' t' := by
  refine run.follow (fun op s t raised s' related legal ends => ?_) related
  obtain ⟨legal', safe, matched⟩ := step op s t related legal
  exact ⟨legal', (matched.flip safe).ends ends⟩

variable {ω : Type}

/-- A run from `s` with these events, after which `observe` sees `seen`. -/
def System.Shows (M : System σ ε φ Op) (observe : σ → ω) (s : σ) (events : List (Op × Option ε))
    (seen : ω) : Prop :=
  ∃ s', M.Run s events s' ∧ observe s' = seen

/-- Two systems that follow each other step by step show the same, as far as related states look the
same. -/
theorem System.shows_iff {observe : σ → ω} {observe' : τ → ω} {events : List (Op × Option ε)} {seen : ω}
    (forth : ∀ op s t raised s', R s t → M.legal op s → (M.exec op s).Ends raised s' →
      N.legal op t ∧ ∃ t', (N.exec op t).Ends raised t' ∧ R s' t')
    (back : ∀ op s t raised t', R s t → N.legal op t → (N.exec op t).Ends raised t' →
      M.legal op s ∧ ∃ s', (M.exec op s).Ends raised s' ∧ R s' t')
    (look : ∀ s t, R s t → observe s = observe' t) (related : R s t) :
    M.Shows observe s events seen ↔ N.Shows observe' t events seen := by
  constructor
  · intro shown
    obtain ⟨s', run, rfl⟩ := shown
    obtain ⟨t', run', last⟩ := run.follow forth related
    exact ⟨t', run', (look _ _ last).symm⟩
  · intro shown
    obtain ⟨t', run, rfl⟩ := shown
    obtain ⟨s', run', last⟩ := run.follow (R := fun t s => R s t) (fun op t s => back op s t) related
    exact ⟨s', run', look _ _ last⟩

end Two

end Effect
