import BoostOptional.Storage.Replacement
import BoostOptional.Swap.Selector

/-!
The swaps of `optional_swap.hpp` over the two storages. A scalar is swapped, moved and constructed by
default without a throw, so both run to the end.
-/

namespace BoostOptional
open Effect Prog Memory

variable {α ε : Type}

/-! ### Two states at once -/

/-- The states look alike, and what can be seen in the second is there. -/
structure Tied (s t : World α) : Prop where
  similar : Similar s t
  held : ∀ p, t.flag p = some true → (t.value (.contained p)).isSome = true
  scratch : t.scratch = none

def Both (c a : Code α ε Unit) (s t : World α) (flag : ObjId → Option Bool) : Prop :=
  ∃ s' t', c s = .ok () s' ∧ a t = .ok () t' ∧ Tied s' t' ∧ s'.flag = flag

section Both

variable {s t s' t' : World α} {o x y : ObjId} {b : Behaviour α ε} {c a c' a' : Code α ε Unit}
  {f : ObjId → Option Bool} {v : α}

theorem Both.andThen (first : Both c a s t f)
    (rest : ∀ s' t', Tied s' t' → s'.flag = f → (c' s').Match Similar (a' t')) :
    ((do c; c' : Code α ε Unit) s).Match Similar ((do a; a' : Code α ε Unit) t) := by
  obtain ⟨s', t', run, run', tied, flag⟩ := first
  rw [bind_apply, andThen_ok run, bind_apply, andThen_ok run']
  exact rest s' t' tied flag

theorem Both.toMatch (both : Both c a s t f) : (c s).Match Similar (a t) := by
  obtain ⟨s', t', run, run', tied, -⟩ := both
  rw [run, run']
  exact ⟨rfl, tied.similar⟩

theorem Tied.live (tied : Tied s t) (full : s.flag o = some true) :
    ∃ v, s.value (.contained o) = some v ∧ t.value (.contained o) = some v := by
  have full' : t.flag o = some true := tied.similar.flag ▸ full
  obtain ⟨v, held⟩ := Option.isSome_iff_exists.mp (tied.held o full')
  exact ⟨v, (tied.similar.value (.contained o) full).trans held, held⟩

theorem both_put (tied : Tied s t) (first : Puts o v (setAt s.flag o (some true)) s (c s))
    (second : Puts o v (setAt t.flag o (some true)) t (a t)) :
    Both c a s t (setAt s.flag o (some true)) := by
  obtain ⟨s', run, put⟩ := first
  obtain ⟨t', run', put'⟩ := second
  refine ⟨s', t', run, run', ⟨put_similar tied.similar put put', fun p full => ?_,
    put'.scratch⟩, put.flag⟩
  by_cases here : p = o
  · rw [here, put'.here]
    rfl
  · have before : t.flag p = some true := by rwa [put'.flag, setAt, if_neg here] at full
    rw [put'.others (.contained p) before fun same => here (Loc.contained.inj same)]
    exact tied.held p before

theorem both_clear (tied : Tied s t) (first : Clears o (setAt s.flag o (some false)) s (c s))
    (second : Clears o (setAt t.flag o (some false)) t (a t)) :
    Both c a s t (setAt s.flag o (some false)) := by
  obtain ⟨s', run, cleared⟩ := first
  obtain ⟨t', run', cleared'⟩ := second
  refine ⟨s', t', run, run', ⟨cleared_similar tied.similar (by simp) cleared cleared', fun p full =>
    ?_, cleared'.scratch⟩,
    cleared.flag⟩
  have here : p ≠ o := by
    rintro rfl
    rw [cleared'.flag, setAt, if_pos rfl] at full
    cases full
  have before : t.flag p = some true := by rwa [cleared'.flag, setAt, if_neg here] at full
  rw [cleared'.others (.contained p) before fun same => here (Loc.contained.inj same)]
  exact tied.held p before

theorem both_destroy (tied : Tied s t) (full : s.flag o = some true) :
    Both (Direct.destroy o : Code α ε Unit) (Aligned.destroy o) s t (setAt s.flag o (some false)) := by
  have full' : t.flag o = some true := tied.similar.flag ▸ full
  obtain ⟨t', run, cleared, -⟩ := Aligned.destroy_clears (ε := ε) full' (tied.held o full') tied.scratch
  refine both_clear tied ⟨_, rfl, rfl, fun l visible _ => ?_, rfl, tied.similar.scratch⟩
    ⟨t', run, cleared⟩
  exact (setFlag_alike (o := o) (some false) tied.similar.scratch).value l visible

variable (conversions : Conversions b)

include conversions

theorem both_move {dst src : ObjId} (tied : Tied s t) (empty : s.flag dst = some false)
    (vacant : t.value (.contained dst) = none)
    (full : s.flag src = some true) :
    Both (Direct.assignFromT b dst ⟨.contained src, .rvalue, .self⟩)
      (Aligned.assignFromT b dst ⟨.contained src, .rvalue, .self⟩) s t (setAt s.flag dst
        (some true)) := by
  have empty' : t.flag dst = some false := tied.similar.flag ▸ empty
  have full' : t.flag src = some true := tied.similar.flag ▸ full
  obtain ⟨v, held, held'⟩ := tied.live full
  refine both_put tied (v := v) ?_ ?_
  · exact Direct.construct_puts conversions (v := ⟨.contained src, .rvalue, .self⟩)
      (Alike.refl tied.similar.scratch) rfl
      full held
  · rw [Aligned.assignFromT, Aligned.assign, bind_apply, andThen_ok (isInitialized_eq empty')]
    exact Aligned.construct_puts conversions (v := ⟨.contained src, .rvalue, .self⟩)
      (Alike.refl tied.scratch) vacant rfl
      full' held'

omit conversions in
theorem puts_of_initial {u : World α} {r : Reply α ε} {out : Outcome (World α) ε Fault Unit}
    {g : ObjId → Option Bool} (builds : Builds b .direct [] o f g u out)
    (quiet : (reply b .direct [] u).threw = none)
    (same : (reply b .direct [] u).result = r.result) : Puts o r.result g u out := by
  obtain ⟨u', run, filled⟩ := builds.2 quiet
  have cleared := filled_initial filled rfl
  exact ⟨u', run, filled.flag, same ▸ filled.here, cleared.others, cleared.history, cleared.scratch⟩

theorem both_emplace (tied : Tied s t) (empty : s.flag o = some false)
    (vacant : t.value (.contained o) = none) :
    Both (Direct.emplace b o []) (Aligned.emplace b o []) s t (setAt s.flag o (some true)) := by
  have empty' : t.flag o = some false := tied.similar.flag ▸ empty
  have same : Reply.Same [] (reply b .direct [] s) (reply b .direct [] t) :=
    reply_similar tied.similar conversions .direct nofun
  have idle : (Aligned.destroy o : Code α ε Unit) t = .ok () t := by
    rw [Aligned.destroy, bind_apply, andThen_ok (isInitialized_eq empty')]
    rfl
  have second : Aligned.emplace b o [] t = Aligned.constructInPlace b o [] t := andThen_ok idle _
  refine both_put tied (v := (reply b .direct [] s).result) ?_ ?_
  · exact puts_of_initial (Direct.constructInPlace_builds conversions
      (Alike.refl tied.similar.scratch) nofun)
      (conversions.scalar.initial _ _ _) rfl
  · rw [second]
    exact puts_of_initial (Aligned.build_builds conversions .direct
      (Alike.refl tied.scratch) vacant nofun)
      (conversions.scalar.initial _ _ _) same.2.1.symm

theorem invokeSwap_swapped {w : World α} {u : α} (heldX : w.value (.contained x) = some v)
    (heldY : w.value (.contained y) = some u) :
    ∃ w', invokeSwap b (.contained x) (.contained y) w = .ok () w' ∧ w'.flag = w.flag ∧
      (∀ l, w'.value l = if l = .contained x then some u else if l = .contained y then some v
        else w.value l) ∧
      history w'.trace = history w.trace := by
  obtain ⟨quiet, atX, atY⟩ := conversions.scalar.swap w.trace w.value _ _ _ _ heldX heldY
  have values := World.called_value w [.contained x, .contained y]
    (b w.trace (.swap (.contained x) (.contained y)) w.value).after
    (.swap (.contained x) (.contained y))
  have run : invokeSwap b (.contained x) (.contained y) w = _ :=
    invokeSwap_returns (congrArg Option.isSome heldX) (congrArg Option.isSome heldY) quiet
  refine ⟨_, run, rfl, fun l => (values l).trans ?_, rfl⟩
  by_cases isX : l = .contained x
  · rw [if_pos (by simp [isX]), if_pos isX, isX, atX]
  · rw [if_neg isX]
    by_cases isY : l = .contained y
    · rw [if_pos (by simp [isY]), if_pos isY, isY, atY]
    · rw [if_neg (by simp [isX, isY]), if_neg isY]

theorem both_swap (tied : Tied s t) (fullX : s.flag x = some true) (fullY : s.flag y = some true) :
    Both (invokeSwap b (.contained x) (.contained y))
      (invokeSwap b (.contained x) (.contained y)) s t s.flag := by
  obtain ⟨v, heldX, heldX'⟩ := tied.live fullX
  obtain ⟨u, heldY, heldY'⟩ := tied.live fullY
  obtain ⟨s', run, flag, value, past⟩ := invokeSwap_swapped conversions heldX heldY
  obtain ⟨t', run', flag', value', past'⟩ := invokeSwap_swapped conversions heldX' heldY'
  refine ⟨s', t', run, run', ⟨⟨?_, fun l visible => ?_, ?_, ?_⟩, fun p full => ?_, ?_⟩, flag⟩
  · rw [flag, flag', tied.similar.flag]
  · have before : Visible s l := by
      cases l with
      | contained p => rwa [Visible, flag] at visible
      | var z => trivial
      | scratch => exact visible
    rw [value, value', tied.similar.value l before]
  · rw [past, past', tied.similar.history]
  · exact (value .scratch).trans tied.similar.scratch
  · rw [value']
    split
    · rfl
    · split
      · rfl
      · exact tied.held p (flag' ▸ full)
  · exact (value' .scratch).trans tied.scratch

/-! ### swap -/

theorem both_moveAcross {dst src : ObjId} (tied : Tied s t) (empty : s.flag dst = some false)
    (vacant : t.value (.contained dst) = none) (full : s.flag src = some true) :
    (moveAcross (Direct.legacyOps b) dst src s).Match Similar
      (moveAcross (Aligned.legacyOps b) dst src t) := by
  have apart : src ≠ dst := by
    rintro rfl
    rw [empty] at full
    cases full
  refine (both_move conversions tied empty vacant full).andThen fun s' t' tied' flag => ?_
  exact (both_destroy tied' (by rw [flag, setAt, if_neg apart, full])).toMatch

theorem both_throughDefault {dst src : ObjId} (tied : Tied s t) (empty : s.flag dst = some false)
    (vacant : t.value (.contained dst) = none) (full : s.flag src = some true)
    (pair : (x = dst ∧ y = src) ∨ (x = src ∧ y = dst)) :
    ((do Direct.emplace b dst []; swapValues b x y (Direct.destroy src) : Code α ε Unit) s).Match Similar
      ((do Aligned.emplace b dst []; swapValues b x y (Aligned.destroy src) : Code α ε Unit) t) := by
  have apart : src ≠ dst := by
    rintro rfl
    rw [empty] at full
    cases full
  refine (both_emplace conversions tied empty vacant).andThen fun s' t' tied' flag => ?_
  have fullDst : s'.flag dst = some true := by rw [flag, setAt, if_pos rfl]
  have fullSrc : s'.flag src = some true := by rw [flag, setAt, if_neg apart, full]
  have fullX : s'.flag x = some true := by rcases pair with ⟨rfl, _⟩ | ⟨rfl, _⟩ <;> assumption
  have fullY : s'.flag y = some true := by rcases pair with ⟨_, rfl⟩ | ⟨_, rfl⟩ <;> assumption
  rw [swapValues_eq _ fullX fullY, swapValues_eq _ (tied'.similar.flag ▸ fullX)
    (tied'.similar.flag ▸ fullY)]
  refine (both_swap conversions tied' fullX fullY).andThen fun u u' tied'' flag' => ?_
  exact (both_destroy tied'' (by rw [flag', fullSrc])).toMatch

theorem swap_match (useDefault : Bool) (similar : Similar s t) (settled : t.Settled)
    (hereX : s.flag x ≠ none)
    (hereY : s.flag y ≠ none) :
    (Direct.swap b useDefault x y s).Match Similar (Aligned.swap b useDefault x y t) := by
  have tied : Tied s t := ⟨similar, fun p full => settled_live settled full, settled.scratch⟩
  obtain ⟨hasX, flagX⟩ := Option.ne_none_iff_exists'.mp hereX
  obtain ⟨hasY, flagY⟩ := Option.ne_none_iff_exists'.mp hereY
  have flagX' : t.flag x = some hasX := similar.flag ▸ flagX
  have flagY' : t.flag y = some hasY := similar.flag ▸ flagY
  have vacant : ∀ p, t.flag p = some false → t.value (.contained p) = none := fun p empty =>
    settled_vacant settled (by simp [empty])
  cases useDefault with
  | false =>
    simp only [Direct.swap, Aligned.swap, legacySwap, Bool.false_eq_true, if_false]
    rw [optionalSwapMove_eq _ flagX flagY, optionalSwapMove_eq _ flagX' flagY']
    cases hasX <;> cases hasY
    · exact ⟨rfl, similar⟩
    · exact both_moveAcross conversions tied flagX (vacant x flagX') flagY
    · exact both_moveAcross conversions tied flagY (vacant y flagY') flagX
    · exact (both_swap conversions tied flagX flagY).toMatch
  | true =>
    simp only [Direct.swap, Aligned.swap, legacySwap, if_true]
    rw [optionalSwapDefault_eq _ flagX flagY, optionalSwapDefault_eq _ flagX' flagY']
    cases hasX <;> cases hasY
    · exact ⟨rfl, similar⟩
    · exact both_throughDefault conversions tied flagX (vacant x flagX') flagY (.inl ⟨rfl, rfl⟩)
    · exact both_throughDefault conversions tied flagY (vacant y flagY') flagX (.inr ⟨rfl, rfl⟩)
    · exact (both_swap conversions tied flagX flagY).toMatch

end Both

end BoostOptional
