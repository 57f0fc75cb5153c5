import BoostOptional.Storage.Functions

/-!
Programs over the direct storage and over the aligned storage of a scalar see the same: the same
exceptions at the same steps, the same flags and the same values. Three kinds of step are left out.
`emplace` and assignment from a factory destroy the old value first in the aligned storage only, an
initialized optional is assigned a `U` by different conversions, and `m_storage` is copied also
where nothing has been stored.
-/

namespace BoostOptional
open Effect Prog Memory

variable {α ε : Type}

/-- What a program sees is the same in the two states. -/
structure Similar (s t : World α) : Prop where
  flag : s.flag = t.flag
  value : ∀ l, Visible s l → s.value l = t.value l
  history : history s.trace = history t.trace
  scratch : s.scratch = none

section Match

variable {s t s' t' : World α} {o : ObjId} {init : Option Bool} {b : Behaviour α ε} {how how' : Init}
  {args : List Arg} {x : α} {out out' : Outcome (World α) ε Fault Unit} (similar : Similar s t)

theorem Similar.visible (similar : Similar s t) (l : Loc) : Visible s l ↔ Visible t l := by
  cases l with
  | contained p => simp only [Visible, similar.flag]
  | var x => exact Iff.rfl
  | scratch => exact Iff.rfl

theorem visible_before (after : s'.flag = setAt s.flag o init) {l : Loc} (visible : Visible s' l)
    (other : l ≠ .contained o) : Visible s l := by
  cases l with
  | contained p =>
    have apart : p ≠ o := fun same => other (congrArg Loc.contained same)
    rwa [Visible, after, setAt, if_neg apart] at visible
  | var x => trivial
  | scratch => exact visible

include similar

theorem put_similar (first : Put o x (setAt s.flag o init) s s')
    (second : Put o x (setAt t.flag o init) t t') :
    Similar s' t' where
  flag := by rw [first.flag, second.flag, similar.flag]
  value l visible := by
    by_cases here : l = .contained o
    · rw [here, first.here, second.here]
    · have before := visible_before first.flag visible here
      rw [first.others l before here, second.others l ((similar.visible l).mp before) here,
        similar.value l before]
  history := by rw [first.history, second.history, similar.history]
  scratch := first.scratch

theorem puts_match (first : Puts o x (setAt s.flag o init) s out)
    (second : Puts o x (setAt t.flag o init) t out') :
    out.Match Similar out' := by
  obtain ⟨s', rfl, put⟩ := first
  obtain ⟨t', rfl, put'⟩ := second
  exact ⟨rfl, put_similar similar put put'⟩

theorem cleared_similar (hidden : init ≠ some true) (first : Cleared o (setAt s.flag o init) s s')
    (second : Cleared o (setAt t.flag o init) t t') : Similar s' t' := by
  refine ⟨by rw [first.flag, second.flag, similar.flag], fun l visible => ?_, ?_, first.scratch⟩
  · have here : l ≠ .contained o := by
      rintro rfl
      rw [Visible, first.flag, setAt, if_pos rfl] at visible
      exact hidden visible
    have before := visible_before first.flag visible here
    rw [first.others l before here, second.others l ((similar.visible l).mp before) here,
      similar.value l before]
  · rw [first.history, second.history, similar.history]

theorem clears_match (hidden : init ≠ some true) (first : Clears o (setAt s.flag o init) s out)
    (second : Clears o (setAt t.flag o init) t out') : out.Match Similar out' := by
  obtain ⟨s', rfl, cleared⟩ := first
  obtain ⟨t', rfl, cleared'⟩ := second
  exact ⟨rfl, cleared_similar similar hidden cleared cleared'⟩

omit similar in
theorem passed_value {r r' : Reply α ε} (similar : Similar s t) (same : Reply.Same args r r') {l : Loc}
    (visible : Visible s l) :
    (if l ∈ args.map Arg.loc then some (r.after l) else s.value l) =
      if l ∈ args.map Arg.loc then some (r'.after l) else t.value l := by
  split
  · rename_i member
    obtain ⟨v, given, rfl⟩ := List.mem_map.mp member
    rw [same.2.2 v given]
  · exact similar.value l visible

theorem filled_similar {r r' : Reply α ε} (same : Reply.Same args r r')
    (kinds : logged how args = logged how' args)
    (first : Filled how args r o (setAt s.flag o init) s s')
    (second : Filled how' args r' o (setAt t.flag o init) t t') :
    Similar s' t' where
  flag := by rw [first.flag, second.flag, similar.flag]
  value l visible := by
    by_cases here : l = .contained o
    · rw [here, first.here, second.here, same.2.1]
    · have before := visible_before first.flag visible here
      rw [first.others l before here, second.others l ((similar.visible l).mp before) here,
        passed_value similar same before]
  history := by rw [first.history, second.history, similar.history, kinds]
  scratch := first.scratch

theorem builds_match (same : Reply.Same args (reply b how args s) (reply b how' args t))
    (kinds : logged how args = logged how' args)
    (first : Builds b how args o s.flag (setAt s.flag o init) s out)
    (second : Builds b how' args o t.flag (setAt t.flag o init) t out') :
    out.Match Similar out' := by
  cases threw : (reply b how args s).threw with
  | some e =>
    obtain ⟨s', rfl, called⟩ := first.1 e threw
    obtain ⟨t', rfl, called'⟩ := second.1 e (same.1.symm.trans threw)
    refine ⟨rfl, (called.flag.trans similar.flag).trans called'.flag.symm, fun l visible => ?_, ?_,
      called.scratch⟩
    · have before : Visible s l := by
        cases l with
        | contained p => rwa [Visible, called.flag] at visible
        | var x => trivial
        | scratch => exact visible
      rw [called.value l before, called'.value l ((similar.visible l).mp before),
        passed_value similar same before]
    · rw [called.history, called'.history, similar.history, kinds]
  | none =>
    obtain ⟨s', rfl, filled⟩ := first.2 threw
    obtain ⟨t', rfl, filled'⟩ := second.2 (same.1.symm.trans threw)
    exact ⟨rfl, filled_similar similar same kinds filled filled'⟩

variable (conversions : Conversions b)

include conversions in
theorem reply_similar (how : Init) (passed : Passed s args) :
    Reply.Same args (reply b how args s) (reply b how args t) := by
  refine conversions.construct _ _ _ _ _ _ _ _ similar.history fun v given => ?_
  obtain ⟨visible, live⟩ := passed v given
  exact ⟨similar.value _ visible, live⟩

theorem Passed.follow (passed : Passed s args) : Passed t args := by
  intro v given
  obtain ⟨visible, live⟩ := passed v given
  exact ⟨(similar.visible _).mp visible, by rw [← similar.value _ visible, live]⟩

omit similar in
theorem Reply.Same.trans {r r' r'' : Reply α ε} (first : Reply.Same args r r')
    (second : Reply.Same args r' r'') :
    Reply.Same args r r'' :=
  ⟨first.1.trans second.1, first.2.1.trans second.2.1, fun v given =>
      (first.2.2 v given).trans (second.2.2 v given)⟩

end Match

/-! ### Operations -/

section Operations

variable {s t : World α} {o : ObjId} {b : Behaviour α ε} {args : List Arg} {v : Arg} {x : α}
  (similar : Similar s t) (settled : t.Settled) (conversions : Conversions b)

theorem settled_live (settled : t.Settled) {p : ObjId} {init : Bool} (flag : t.flag p = some init) :
    (t.value (.contained p)).isSome = init := by
  have consistent := settled.consistent p
  rw [flag] at consistent
  cases init with
  | true => exact consistent.mpr rfl
  | false =>
    cases held : (t.value (.contained p)).isSome with
    | true => exact absurd (consistent.mp held) (by simp)
    | false => rfl

theorem settled_vacant (settled : t.Settled) (empty : t.flag o ≠ some true) :
    t.value (.contained o) = none := by
  have consistent := settled.consistent o
  cases held : t.value (.contained o) with
  | none => rfl
  | some y => exact absurd (consistent.mp (by rw [held]; rfl)) empty

include similar settled conversions

/-! ### Constructors -/

theorem emptyCtor_match (absent : s.flag o = none) :
    (Direct.defaultCtor b o s).Match Similar ((Aligned.defaultCtor o : Code α ε Unit) t) :=
  clears_match similar (by simp) (Direct.emptyBase_clears conversions absent similar.scratch)
    (born_clears false (similar.flag ▸ absent) settled.scratch)

theorem valueCtor_match (absent : s.flag o = none) (self : v.ty = .self) (passed : Passed s [v]) :
    (Direct.valueCtor b o v s).Match Similar (Aligned.valueCtor b o v t) := by
  have absent' : t.flag o = none := similar.flag ▸ absent
  obtain ⟨visible, live⟩ := passed v (.head _)
  obtain ⟨x, held⟩ := Option.isSome_iff_exists.mp live
  have first := Direct.memberCtor_stored conversions (v := { v with cat := .constLvalue }) true absent self held
  refine puts_match similar (puts_of_stored (Alike.refl similar.scratch) first)
    (Aligned.baseCtor_puts absent' settled.scratch (settled_vacant settled (by simp [absent']))
      fun u alike vacant _ => ?_)
  exact Aligned.construct_puts conversions alike vacant self ((similar.visible _).mp visible)
    (by rw [← similar.value _ visible, held])

theorem condCtor_match (cond : Bool) (absent : s.flag o = none) (self : v.ty = .self)
    (passed : Passed s [v]) :
    (Direct.condCtor b o cond v s).Match Similar (Aligned.condCtor b o cond v t) := by
  cases cond with
  | true => exact valueCtor_match similar settled conversions absent self passed
  | false =>
    obtain ⟨x, held⟩ := Option.isSome_iff_exists.mp (passed v (.head _)).2
    obtain ⟨s', run, stored⟩ := Direct.memberCtor_stored conversions (v := { v with cat := .constLvalue }) false absent
      self held
    exact clears_match similar (by simp) ⟨s', run, stored.cleared similar.scratch⟩
      (Aligned.baseCtor_clears (similar.flag ▸ absent) settled.scratch fun _ _ => rfl)

theorem bodyCtor_match {how : Init} {body body' : Code α ε Unit} (absent : s.flag o = none)
    (passed : Passed s args)
    (first : ∀ u, Alike s u → Builds b how args o u.flag (setAt u.flag o (some true)) s (body u))
    (second : ∀ u, Alike t u → u.value (.contained o) = none →
      Builds b how args o u.flag (setAt u.flag o (some true)) t (body' u)) :
    (Direct.bodyCtor o body s).Match Similar (Aligned.baseCtor o body' t) := by
  have absent' : t.flag o = none := similar.flag ▸ absent
  have vacant := settled_vacant settled (show t.flag o ≠ some true by simp [absent'])
  exact builds_match similar (reply_similar similar conversions how passed) rfl
    (Direct.bodyCtor_builds absent similar.scratch first)
    (Aligned.baseCtor_builds absent' settled.scratch vacant second)

theorem inPlaceCtor_match (absent : s.flag o = none) (passed : Passed s args) :
    (Direct.inPlaceCtor b o args s).Match Similar (Aligned.inPlaceCtor b o args t) :=
  bodyCtor_match similar settled conversions absent passed
    (fun _ alike => Direct.constructInPlace_builds conversions alike passed)
    (fun _ alike vacant => Aligned.build_builds conversions .direct alike vacant
      (passed.follow similar))

theorem inPlaceIfCtor_match (cond : Bool) (absent : s.flag o = none) (passed : Passed s args) :
    (Direct.inPlaceIfCtor b o cond args s).Match Similar (Aligned.inPlaceIfCtor b o cond args t) := by
  cases cond with
  | true => exact inPlaceCtor_match similar settled conversions absent passed
  | false =>
    exact clears_match similar (by simp) (Direct.bodyCtor_clears absent similar.scratch)
      (Aligned.baseCtor_clears (similar.flag ▸ absent) settled.scratch fun _ _ => rfl)

theorem factoryCtor_match (how : Init) (absent : s.flag o = none) (passed : Passed s args) :
    (Direct.factoryCtor b o how args s).Match Similar (Aligned.factoryCtor b o how args t) :=
  bodyCtor_match similar settled conversions absent passed
    (fun _ alike => Direct.constructFactory_builds conversions how alike passed)
    (fun _ alike vacant => Aligned.build_builds conversions how alike vacant (passed.follow similar))

theorem memberwiseCtor_match {rhs : ObjId} (cat : Cat) (absent : s.flag o = none)
    (there : s.flag rhs ≠ none)
    (held : (s.value (.contained rhs)).isSome = true) :
    (Direct.memberwiseCtor b o rhs cat s).Match Similar (Aligned.baseCopyCtor b o rhs cat t) := by
  -- The `T` of an empty optional is copied too, and then no flag shows the copy.
  have absent' : t.flag o = none := similar.flag ▸ absent
  have apart : rhs ≠ o := by
    rintro rfl
    exact there absent
  obtain ⟨init, flag⟩ := Option.ne_none_iff_exists'.mp there
  obtain ⟨x, held⟩ := Option.isSome_iff_exists.mp held
  have flag' : t.flag rhs = some init := similar.flag ▸ flag
  obtain ⟨s', run, stored⟩ :=
    Direct.memberCtor_stored conversions (v := ⟨.contained rhs, cat, .self⟩) init absent rfl held
  rw [Direct.memberwiseCtor, bind_apply, andThen_ok (isInitialized_eq flag)]
  cases init with
  | true =>
    refine puts_match similar (puts_of_stored (Alike.refl similar.scratch) ⟨s', run, stored⟩)
      (Aligned.baseCtor_puts absent' settled.scratch (settled_vacant settled (by simp [absent']))
        fun u alike vacant others => ?_)
    rw [bind_apply, andThen_ok (isInitialized_eq ((others rhs apart).trans flag'))]
    exact Aligned.construct_puts conversions alike vacant rfl flag'
      (by rw [← similar.value (.contained rhs) flag, held])
  | false =>
    refine clears_match similar (by simp) ⟨s', run, stored.cleared similar.scratch⟩
      (Aligned.baseCtor_clears absent' settled.scratch fun u others => ?_)
    rw [bind_apply, andThen_ok (isInitialized_eq ((others rhs apart).trans flag'))]
    rfl

theorem convCtor_match {rhs : ObjId} (cat : Cat) (absent : s.flag o = none)
    (there : s.flag rhs ≠ none) :
    (Direct.convCtor b o rhs cat s).Match Similar (Aligned.convCtor b o rhs cat t) := by
  have absent' : t.flag o = none := similar.flag ▸ absent
  obtain ⟨init, flag⟩ := Option.ne_none_iff_exists'.mp there
  have flag' : t.flag rhs = some init := similar.flag ▸ flag
  cases init with
  | true =>
    have live' := settled_live settled flag'
    have live : (s.value (.contained rhs)).isSome = true := by
      rw [similar.value (.contained rhs) flag, live']
    have passed : Passed s [⟨.contained rhs, cat, .other⟩] := passed_single flag live
    exact builds_match similar (reply_similar similar conversions .implicit passed) rfl
      (Direct.convCtor_builds conversions cat absent similar.scratch flag live)
      (Aligned.convCtor_builds conversions cat absent' settled.scratch
        (settled_vacant settled (by simp [absent'])) flag' live')
  | false =>
    exact clears_match similar (by simp)
      (Direct.convCtor_clears conversions cat absent similar.scratch flag)
      (Aligned.convCtor_clears cat absent' settled.scratch flag')

/-! ### Assignments -/

omit conversions in
theorem destroy_match (here : s.flag o ≠ none) :
    ((Direct.destroy o : Code α ε Unit) s).Match Similar ((Aligned.destroy o : Code α ε Unit) t) := by
  obtain ⟨init, flag⟩ := Option.ne_none_iff_exists'.mp here
  have flag' : t.flag o = some init := similar.flag ▸ flag
  obtain ⟨t', run, cleared, -⟩ :=
    Aligned.destroy_clears (ε := ε) flag' (settled_live settled flag') settled.scratch
  refine clears_match similar (by simp) ⟨_, rfl, rfl, fun l visible _ => ?_, rfl, similar.scratch⟩
    ⟨t', run, cleared⟩
  exact (setFlag_alike (o := o) (some false) similar.scratch).value l visible

omit similar in
theorem alignedPut {init : Bool} (flag : t.flag o = some init) (self : v.ty = .self)
    (visible : Visible t v.loc)
    (held : t.value v.loc = some x) :
    Puts o x (setAt t.flag o (some true)) t ((if init then Aligned.assignValue b o v
        else Aligned.construct b o v) t) := by
  have alike := Alike.refl settled.scratch
  have live := settled_live settled flag
  cases init with
  | true =>
    rw [setAt_self flag]
    exact Aligned.assignValue_puts conversions alike live self visible held
  | false => exact Aligned.construct_puts conversions alike (by simpa using live) self visible held

omit similar in
theorem alignedBuild {init : Bool} (flag : t.flag o = some init) (other : v.ty ≠ .self)
    (passed : Passed t [v]) :
    Builds b .implicit [v] o t.flag (setAt t.flag o (some true)) t
      ((if init then Aligned.assignValue b o v else Aligned.construct b o v) t) := by
  have alike := Alike.refl settled.scratch
  have live := settled_live settled flag
  cases init with
  | true =>
    rw [setAt_self flag]
    exact Aligned.assignValue_builds conversions alike live other passed
  | false => exact Aligned.construct_builds conversions alike (by simpa using live) other passed

theorem assign_match (here : s.flag o ≠ none) (self : v.ty = .self) (passed : Passed s [v]) :
    (Direct.assign b o v s).Match Similar (Aligned.assign b o v t) := by
  obtain ⟨init, flag⟩ := Option.ne_none_iff_exists'.mp here
  have flag' : t.flag o = some init := similar.flag ▸ flag
  obtain ⟨visible, live⟩ := passed v (.head _)
  obtain ⟨x, held⟩ := Option.isSome_iff_exists.mp live
  refine puts_match similar (Direct.construct_puts conversions
    (Alike.refl similar.scratch) self visible held) ?_
  rw [Aligned.assign, bind_apply, andThen_ok (isInitialized_eq flag')]
  exact alignedPut settled conversions flag' self ((similar.visible _).mp visible)
    (by rw [← similar.value _ visible, held])

omit similar settled conversions in
theorem alignedAssignFrom_eq {this rhs : ObjId} {init has : Bool} (flag : t.flag this = some init)
    (flagR : t.flag rhs = some has) :
    Aligned.assignFrom b this (isInitialized rhs) v t =
      if has then (if init then Aligned.assignValue b this v else Aligned.construct b this v) t
      else Aligned.destroy this t := by
  rw [Aligned.assignFrom, bind_apply, andThen_ok (isInitialized_eq flag)]
  cases init with
  | true =>
    simp only [if_true]
    rw [bind_apply, andThen_ok (isInitialized_eq flagR)]
    cases has <;> rfl
  | false =>
    simp only [Bool.false_eq_true, if_false]
    rw [bind_apply, andThen_ok (isInitialized_eq flagR), Aligned.destroy, bind_apply,
      andThen_ok (isInitialized_eq flag)]
    cases has <;> rfl

theorem memberwiseAssign_match {this rhs : ObjId} (cat : Cat) (here : s.flag this ≠ none)
    (there : s.flag rhs ≠ none)
    (held : (s.value (.contained rhs)).isSome = true) :
    (Direct.memberwiseAssign b this rhs cat s).Match Similar
      (Aligned.assignFrom b this (isInitialized rhs) ⟨.contained rhs, cat, .self⟩ t) := by
  obtain ⟨init, flag⟩ := Option.ne_none_iff_exists'.mp here
  obtain ⟨has, flagR⟩ := Option.ne_none_iff_exists'.mp there
  obtain ⟨x, held⟩ := Option.isSome_iff_exists.mp held
  have flag' : t.flag this = some init := similar.flag ▸ flag
  have flagR' : t.flag rhs = some has := similar.flag ▸ flagR
  have kept : ∀ l, (s.setFlag this (some has)).value l = s.value l := s.setFlag_value this (some has)
  obtain ⟨s', run, stored⟩ := Direct.assignStorage_stored conversions
    (w := s.setFlag this (some has)) (o := this)
    (v := ⟨.contained rhs, cat, .self⟩) rfl ((kept _).trans held)
  have copied : Stored this x (setAt s.flag this (some has)) s s' :=
    ⟨stored.flag, stored.here, fun l other => (stored.others l other).trans (kept l), stored.history⟩
  have first : Direct.memberwiseAssign b this rhs cat s = .ok () s' :=
    (andThen_ok (isInitialized_eq flagR) _).trans run
  rw [alignedAssignFrom_eq flag' flagR']
  cases has with
  | true =>
    refine puts_match similar (puts_of_stored (Alike.refl similar.scratch) ⟨s', first, copied⟩) ?_
    exact alignedPut settled conversions flag' rfl flagR'
      (by rw [← similar.value (.contained rhs) flagR, held])
  | false =>
    obtain ⟨t', emptied, cleared, -⟩ :=
      Aligned.destroy_clears (ε := ε) flag' (settled_live settled flag') settled.scratch
    exact clears_match similar (by simp) ⟨s', first, copied.cleared similar.scratch⟩
      ⟨t', emptied, cleared⟩

theorem convAssign_match {this rhs : ObjId} (cat : Cat) (here : s.flag this ≠ none)
    (there : s.flag rhs ≠ none) :
    (Direct.assignFrom b this rhs cat s).Match Similar
      (Aligned.assignFrom b this (isInitialized rhs) ⟨.contained rhs, cat, .other⟩ t) := by
  obtain ⟨init, flag⟩ := Option.ne_none_iff_exists'.mp here
  obtain ⟨has, flagR⟩ := Option.ne_none_iff_exists'.mp there
  have flag' : t.flag this = some init := similar.flag ▸ flag
  have flagR' : t.flag rhs = some has := similar.flag ▸ flagR
  rw [alignedAssignFrom_eq flag' flagR', Direct.assignFrom, bind_apply,
    andThen_ok (isInitialized_eq flagR)]
  cases has with
  | true =>
    have live : (s.value (.contained rhs)).isSome = true := by
      rw [similar.value (.contained rhs) flagR, settled_live settled flagR']
    have passed : Passed s [⟨.contained rhs, cat, .other⟩] := passed_single flagR live
    refine builds_match similar (reply_similar similar conversions .implicit passed) rfl ?_
      (alignedBuild settled conversions flag' nofun (passed.follow similar))
    refine builds_then (Direct.assignPrvalue_builds conversions .implicit
      (Alike.refl similar.scratch) passed) fun u flags => ?_
    exact andThen_ok (isInitialized_eq (by rw [flags, flagR])) _
  | false =>
    obtain ⟨t', emptied, cleared, -⟩ :=
      Aligned.destroy_clears (ε := ε) flag' (settled_live settled flag') settled.scratch
    have first : ((do let init ← isInitialized rhs; setInit this init : Code α ε Unit) s) =
        .ok () (s.setFlag this (some false)) := andThen_ok (isInitialized_eq flagR) _
    refine clears_match similar (by simp)
      ⟨_, first, rfl, fun l visible _ => ?_, rfl, similar.scratch⟩ ⟨t', emptied, cleared⟩
    exact (setFlag_alike (o := this) (some false) similar.scratch).value l visible

end Operations

end BoostOptional
