import BoostOptional.Storage.FastPath

/-!
The operations that give an optional with a value another one, and the swaps. Here the two storages
differ: the direct storage assigns a converted temporary, where the aligned storage destroys the old
value first or converts the argument another way.
-/

namespace BoostOptional
open Effect Prog Memory

variable {α ε : Type}

section Replacement

variable {s t : World α} {o : ObjId} {b : Behaviour α ε} {args : List Arg} {v : Arg} {x : α}
  (similar : Similar s t) (settled : t.Settled) (conversions : Conversions b)

include similar settled conversions

/-! ### Assignment from another type -/

theorem assignFromU_match (here : s.flag o ≠ none) (other : v.ty ≠ .self) (passed : Passed s [v])
    (same : s.flag o = some true → Reply.Same [v] (reply b .direct [v] s) (reply b .implicit [v] s)) :
    (Direct.assignFromU b o v s).Match Similar (Aligned.assignFromU b o v t) := by
  -- An initialized optional is assigned through an implicit conversion in the aligned storage.
  obtain ⟨init, flag⟩ := Option.ne_none_iff_exists'.mp here
  have flag' : t.flag o = some init := similar.flag ▸ flag
  have alike := Alike.refl settled.scratch
  have first := Direct.constructInPlace_builds (o := o) conversions (Alike.refl similar.scratch) passed
  have second : Aligned.assignFromU b o v t =
      (if init then Aligned.assignValue b o v else Aligned.constructExpr b o v) t := by
    rw [Aligned.assignFromU, Aligned.assignExpr, bind_apply, andThen_ok (isInitialized_eq flag')]
  rw [second]
  cases init with
  | true =>
    have assigned := Aligned.assignValue_builds conversions alike (settled_live settled flag') other
      (passed.follow similar)
    have kinds : logged .direct [v] = logged .implicit [v] := by
      simp [logged, builtin, Init.kind, other]
    refine builds_match similar ((same flag).trans
      (reply_similar similar conversions .implicit passed)) kinds first ?_
    rw [setAt_self flag']
    exact assigned
  | false =>
    have vacant := settled_vacant settled (show t.flag o ≠ some true by simp [flag'])
    exact builds_match similar (reply_similar similar conversions .direct passed) rfl first
      (Aligned.build_builds conversions .direct alike vacant (passed.follow similar))

/-! ### Emplacement -/

theorem rebuild_match {how : Init} {out : Outcome (World α) ε Fault Unit} (flag : s.flag o = some true)
    (passed : Passed s args) (free : ∀ v ∈ args, v.loc ≠ .contained o)
    (quiet : (reply b how args s).threw = none)
    (first : Builds b how args o s.flag (setAt s.flag o (some true)) s out) :
    out.Match Similar
      ((do Aligned.destroy o; constructT b how (.contained o) args; setInit o true : Code α ε Unit) t) := by
  -- The aligned storage destroys the old value, and then there is none if the construction throws.
  have flag' : t.flag o = some true := similar.flag ▸ flag
  obtain ⟨u, run, cleared, vacant⟩ :=
    Aligned.destroy_clears (ε := ε) flag' (settled_live settled flag') settled.scratch
  have still : ∀ l, Visible t l → l ≠ .contained o → Visible u l := by
    intro l visible other
    cases l with
    | contained p =>
      have apart : p ≠ o := fun same => other (congrArg Loc.contained same)
      rwa [Visible, cleared.flag, setAt, if_neg apart]
    | var y => trivial
    | scratch => exact visible
  have values : ∀ v ∈ args, s.value v.loc = u.value v.loc ∧ (s.value v.loc).isSome = true := by
    intro v given
    obtain ⟨visible, live⟩ := passed v given
    refine ⟨?_, live⟩
    rw [similar.value _ visible, cleared.others _ ((similar.visible _).mp visible) (free v given)]
  have passed' : Passed u args := by
    intro v given
    obtain ⟨visible, live⟩ := passed v given
    exact ⟨still _ ((similar.visible _).mp visible) (free v given), (values v given).1 ▸ live⟩
  have same : Reply.Same args (reply b how args s) (reply b how args u) :=
    conversions.construct _ _ _ _ _ _ _ _ (similar.history.trans cleared.history.symm) values
  obtain ⟨s', rfl, filled⟩ := first.2 quiet
  have built := Aligned.build_builds conversions how (Alike.refl cleared.scratch) vacant passed'
  obtain ⟨t', constructed, filled'⟩ := built.2 (same.1.symm.trans quiet)
  have whole : (do Aligned.destroy o; constructT b how (.contained o) args; setInit o true : Code α ε Unit) t = .ok () t' :=
    (andThen_ok run _).trans constructed
  rw [whole]
  refine ⟨rfl, filled_similar similar same rfl filled
    ⟨?_, filled'.here, fun l visible other => ?_, ?_, filled'.scratch⟩⟩
  · rw [filled'.flag, cleared.flag, setAt_setAt]
  · rw [filled'.others l (still l visible other) other, cleared.others l visible other]
  · rw [filled'.history, cleared.history]

theorem build_match {how : Init} {out : Outcome (World α) ε Fault Unit} (flag : s.flag o = some false)
    (passed : Passed s args) (first : Builds b how args o s.flag (setAt s.flag o (some true)) s out) :
    out.Match Similar ((do constructT b how (.contained o) args; setInit o true : Code α ε Unit) t) := by
  have vacant := settled_vacant settled (show t.flag o ≠ some true by simp [← similar.flag, flag])
  exact builds_match similar (reply_similar similar conversions how passed) rfl first
    (Aligned.build_builds conversions how (Alike.refl settled.scratch) vacant (passed.follow similar))

theorem emplace_match (here : s.flag o ≠ none) (passed : Passed s args)
    (free : ∀ v ∈ args, v.loc ≠ .contained o)
    (quiet : s.flag o = some true → (reply b .direct args s).threw = none) :
    (Direct.emplace b o args s).Match Similar (Aligned.emplace b o args t) := by
  obtain ⟨init, flag⟩ := Option.ne_none_iff_exists'.mp here
  have first := Direct.constructInPlace_builds (o := o) conversions (Alike.refl similar.scratch) passed
  cases init with
  | true => exact rebuild_match similar settled conversions flag passed free (quiet flag) first
  | false =>
    have idle : (Aligned.destroy o : Code α ε Unit) t = .ok () t := by
      rw [Aligned.destroy, bind_apply, andThen_ok (isInitialized_eq (similar.flag ▸ flag))]
      rfl
    have second : Aligned.emplace b o args t = Aligned.constructInPlace b o args t := andThen_ok idle _
    rw [second]
    exact build_match similar settled conversions flag passed first

theorem assignFactory_match (how : Init) (here : s.flag o ≠ none) (passed : Passed s args)
    (free : ∀ v ∈ args, v.loc ≠ .contained o)
    (quiet : s.flag o = some true → (reply b how args s).threw = none) :
    (Direct.assignFactory b o how args s).Match Similar (Aligned.assignFactory b o how args t) := by
  obtain ⟨init, flag⟩ := Option.ne_none_iff_exists'.mp here
  have first :=
    Direct.constructFactory_builds (o := o) conversions how (Alike.refl similar.scratch) passed
  have flag' : t.flag o = some init := similar.flag ▸ flag
  rw [Aligned.assignFactory, Aligned.assignExprFactory, bind_apply, andThen_ok (isInitialized_eq flag')]
  cases init with
  | true => exact rebuild_match similar settled conversions flag passed free (quiet flag) first
  | false => exact build_match similar settled conversions flag passed first

omit conversions in
theorem destructor_match (here : s.flag o ≠ none) :
    ((Direct.destructor o : Code α ε Unit) s).Match Similar
      ((Aligned.destructor o : Code α ε Unit) t) := by
  obtain ⟨init, flag⟩ := Option.ne_none_iff_exists'.mp here
  have flag' : t.flag o = some init := similar.flag ▸ flag
  obtain ⟨t', run, cleared, -⟩ :=
    Aligned.destroy_clears (ε := ε) flag' (settled_live settled flag') settled.scratch
  obtain ⟨s', released, gone⟩ := Direct.releaseStorage_vanishes (ε := ε) (o := o) s
  have second : (Aligned.destructor o : Code α ε Unit) t = .ok () (t'.setFlag o none) :=
    andThen_ok run _
  refine clears_match similar (by simp) ⟨s', released, gone.flag, fun l _ => gone.others l, ?_, ?_⟩
    ⟨_, second, ?_, fun l visible other => ?_, cleared.history, cleared.scratch⟩
  · rw [gone.trace]
  · exact (gone.others .scratch nofun).trans similar.scratch
  · rw [← setAt_setAt t.flag o (some false) none, ← cleared.flag]
    rfl
  · rw [← cleared.others l visible other]
    cases l <;> rfl

end Replacement

end BoostOptional
