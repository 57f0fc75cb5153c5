import BoostOptional.Storage.Effects

/-!
The functions of `tc_optional_base` and of `optional_base` that give an optional a value or take it
away, for a scalar `T`, by what they do to what can be seen.
-/

namespace BoostOptional
open Effect Prog Memory

variable {α ε : Type}

/-- `o` has no value that can be seen, and nothing else that can be seen changed. -/
structure Cleared (o : ObjId) (flag : ObjId → Option Bool) (w w' : World α) : Prop where
  flag : w'.flag = flag
  others : ∀ l, Visible w l → l ≠ .contained o → w'.value l = w.value l
  history : history w'.trace = history w.trace
  scratch : w'.scratch = none

def Puts (o : ObjId) (x : α) (flag : ObjId → Option Bool) (w : World α)
    (outcome : Outcome (World α) ε Fault Unit) :
    Prop :=
  ∃ w', outcome = .ok () w' ∧ Put o x flag w w'

def Clears (o : ObjId) (flag : ObjId → Option Bool) (w : World α)
    (outcome : Outcome (World α) ε Fault Unit) : Prop :=
  ∃ w', outcome = .ok () w' ∧ Cleared o flag w w'

section Functions

variable {w u : World α} {o : ObjId} {b : Behaviour α ε} (conversions : Conversions b)
    {args : List Arg} {v : Arg}
  {x : α}

theorem puts_of_stored {g : ObjId → Option Bool} {outcome : Outcome (World α) ε Fault Unit}
    (alike : Alike w u)
    (stores : ∃ w', outcome = .ok () w' ∧ Stored o x g u w') : Puts o x g w outcome := by
  obtain ⟨w', run, stored⟩ := stores
  refine ⟨w', run, stored.flag, stored.here, fun l visible other => ?_,
    stored.history.trans alike.history, ?_⟩
  · rw [stored.others l other, alike.value l visible]
  · exact (stored.others .scratch nofun).trans alike.scratch

theorem Stored.cleared {g : ObjId → Option Bool} (stored : Stored o x g w u)
    (quiet : w.scratch = none) : Cleared o g w u :=
  ⟨stored.flag, fun l _ other => stored.others l other, stored.history,
      (stored.others .scratch nofun).trans quiet⟩

theorem passed_single (visible : Visible w v.loc) (live : (w.value v.loc).isSome = true) :
    Passed w [v] := by
  intro u given
  rw [List.mem_singleton.mp given]
  exact ⟨visible, live⟩

include conversions in
theorem constructT_stored (self : v.ty = .self) (held : w.value v.loc = some x)
    (empty : w.value (.contained o) = none) :
    ∃ w', constructT b .direct (.contained o) [v] w = .ok () w' ∧ Stored o x w.flag w w' := by
  obtain ⟨quiet, result, after⟩ :=
    conversions.scalar.construct w.trace w.value (.contained o) v x self held
  have live : ([v].map Arg.loc).all (fun l => (value w l).isSome) = true := by
    simp [show value w v.loc = some x from held]
  have run := constructT_returns empty live quiet
  have values := World.called_value w [v.loc]
    (b w.trace (.construct .direct (.contained o) [v]) w.value).after
    (.construct .direct (.contained o) [v])
  refine ⟨(log (update w [v.loc] (b w.trace (.construct .direct (.contained o) [v]) w.value).after)
    (.construct .direct (.contained o) [v])).setCell o (.live x), run.trans ?_, rfl, ?_,
    fun l other => ?_, ?_⟩
  · rw [← result]
    rfl
  · rw [place_contained, if_pos rfl]
  · rw [place_contained, if_neg other, values]
    by_cases source : l = v.loc
    · rw [if_pos (by simp [source]), source, after, held]
    · rw [if_neg (by simp [source])]
  · simp [World.setCell, log, update, World.update, history, logged, builtin, self]

/-! ### Constructors -/

theorem setAt_setAt (flag : ObjId → Option Bool) (o : ObjId) (first second : Option Bool) :
    setAt (setAt flag o first) o second = setAt flag o second := by
  funext p
  simp only [setAt]
  split <;> rfl

theorem setAt_self {flag : ObjId → Option Bool} {init : Option Bool} (same : flag o = init) :
    setAt flag o init = flag := by
  funext p
  by_cases here : p = o
  · rw [setAt, if_pos here, here, same]
  · rw [setAt, if_neg here]

theorem visible_apart {l : Loc} (absent : w.flag o = none) (visible : Visible w l) :
    l ≠ .contained o := by
  rintro rfl
  rw [Visible, absent] at visible
  cases visible

structure Vanished (o : ObjId) (t t' : World α) : Prop where
  flag : t'.flag = setAt t.flag o none
  others : ∀ l, l ≠ .contained o → t'.value l = t.value l
  trace : t'.trace = t.trace

theorem builds_onThrow {how : Init} {body cleanup : Code α ε Unit} {init : Bool}
    {g : ObjId → Option Bool}
    (absent : w.flag o = none) (flags : u.flag = setAt w.flag o (some init))
    (builds : Builds b how args o u.flag g w (body u))
    (cleans : ∀ t, t.flag = u.flag → ∃ t', cleanup t = .ok () t' ∧ Vanished o t t') :
    Builds b how args o w.flag g w (onThrow body cleanup u) := by
  refine ⟨fun e threw => ?_, fun threw => ?_⟩
  · obtain ⟨t, run, called⟩ := builds.1 e threw
    obtain ⟨t', cleaned, vanished⟩ := cleans t called.flag
    refine ⟨t', onThrow_thrown run cleaned, ?_, fun l visible => ?_, ?_, ?_⟩
    · rw [vanished.flag, called.flag, flags, setAt_setAt, setAt_self absent]
    · rw [vanished.others l (visible_apart absent visible), called.value l visible]
    · rw [vanished.trace, called.history]
    · exact (vanished.others .scratch nofun).trans called.scratch
  · obtain ⟨t, run, filled⟩ := builds.2 threw
    exact ⟨t, onThrow_ok run _, filled⟩

theorem born_absent {init : Bool} (absent : w.flag o = none) :
    (born o init : Code α ε Unit) w = .ok () (w.setFlag o (some init)) := by
  simp only [born, absent]

theorem setFlag_alike (init : Option Bool) (quiet : w.scratch = none) : Alike w (w.setFlag o init) where
  value l _ := by cases l <;> rfl
  history := rfl
  scratch := quiet

theorem setCell_alike (c : Cell α) (absent : w.flag o = none) (alike : Alike w u) :
    Alike w (u.setCell o c) where
  value l visible := by
    rw [← alike.value l visible]
    have other := visible_apart absent visible
    cases l with
    | contained p => exact congrArg Cell.value? (if_neg fun same => other (congrArg Loc.contained same))
    | var x => rfl
    | scratch => rfl
  history := alike.history
  scratch := alike.scratch

theorem Cleared.alike {flag : ObjId → Option Bool} (cleared : Cleared o flag w u)
    (absent : w.flag o = none) :
    Alike w u where
  value l visible := cleared.others l visible (visible_apart absent visible)
  history := cleared.history
  scratch := cleared.scratch

theorem born_clears (init : Bool) (absent : w.flag o = none) (quiet : w.scratch = none) :
    Clears o (setAt w.flag o (some init)) w ((born o init : Code α ε Unit) w) :=
  ⟨w.setFlag o (some init), born_absent absent, rfl, fun l visible _ =>
      (setFlag_alike _ quiet).value l visible, rfl, quiet⟩

/-- A default construction is no conversion, and does not throw. -/
theorem filled_initial {how : Init} {w' : World α} {flag : ObjId → Option Bool} {r : Reply α ε}
    (filled : Filled how [] r o flag w w') (logs : logged how [] = []) : Cleared o flag w w' where
  flag := filled.flag
  others l visible other := (filled.others l visible other).trans (if_neg (by simp))
  history := by rw [filled.history, logs, List.nil_append]
  scratch := filled.scratch

/-! ### tc_optional_base -/

namespace Direct

include conversions in
theorem assignStorage_stored (self : v.ty = .self) (held : w.value v.loc = some x) :
    ∃ w', assignStorage b o v w = .ok () w' ∧ Stored o x w.flag w w' := by
  rw [assignStorage_eq_assignment (by rw [held]; rfl)]
  exact assignment_stored conversions self held

include conversions in
theorem construct_puts (alike : Alike w u) (self : v.ty = .self) (visible : Visible w v.loc)
    (held : w.value v.loc = some x) :
    Puts o x (setAt u.flag o (some true)) w (construct b o v u) := by
  rw [construct, bindParam_self b self]
  refine puts_of_stored alike (stored_setInit (assignStorage_stored conversions self ?_))
  rw [← held]
  exact alike.value v.loc visible

include conversions in
theorem construct_builds (alike : Alike w u) (other : v.ty ≠ .self) (passed : Passed w [v]) :
    Builds b .implicit [v] o u.flag (setAt u.flag o (some true)) w (construct b o v u) := by
  rw [construct, bindParam_other b other]
  refine throughScratch_builds conversions alike passed fun t y scratch flags _ => ?_
  rw [← flags]
  exact stored_setInit (assignStorage_stored conversions rfl scratch)

include conversions in
theorem assignPrvalue_builds (how : Init) (alike : Alike w u) (passed : Passed w args) :
    Builds b how args o u.flag u.flag w (assignPrvalue b o how args u) := by
  refine throughScratch_builds conversions alike passed fun t y scratch flags _ => ?_
  rw [← flags]
  exact assignStorage_stored conversions rfl scratch

include conversions in
theorem constructInPlace_builds (alike : Alike w u) (passed : Passed w args) :
    Builds b .direct args o u.flag (setAt u.flag o (some true)) w (constructInPlace b o args u) :=
  builds_setInit (assignPrvalue_builds conversions .direct alike passed)

include conversions in
theorem constructFactory_builds (how : Init) (alike : Alike w u) (passed : Passed w args) :
    Builds b how args o u.flag (setAt u.flag o (some true)) w (constructFactory b o how args u) :=
  builds_setInit (placeStorage_builds conversions alike passed)

theorem releaseStorage_vanishes (t : World α) :
    ∃ t', (releaseStorage o : Code α ε Unit) t = .ok () t' ∧ Vanished o t t' := by
  refine ⟨_, rfl, rfl, fun l other => ?_, rfl⟩
  cases l with
  | contained p => exact congrArg Cell.value? (if_neg fun same => other (congrArg Loc.contained same))
  | var x => rfl
  | scratch => rfl

include conversions in
theorem memberCtor_builds (init : Bool) (absent : w.flag o = none) (quiet : w.scratch = none)
    (passed : Passed w args) :
    Builds b .direct args o w.flag (setAt w.flag o (some init)) w (memberCtor b o init args w) := by
  rw [memberCtor, bind_apply, andThen_ok (born_absent absent)]
  exact builds_onThrow absent rfl (placeStorage_builds conversions (setFlag_alike _ quiet) passed)
    fun t _ => releaseStorage_vanishes t

include conversions in
theorem emptyBase_clears (absent : w.flag o = none) (quiet : w.scratch = none) :
    Clears o (setAt w.flag o (some false)) w (emptyBase b o w) := by
  have builds : Builds b .direct [] o w.flag
    (setAt w.flag o (some false)) w (memberCtor b o false [] w) :=
    memberCtor_builds conversions false absent quiet nofun
  obtain ⟨w', run, filled⟩ := builds.2 (conversions.scalar.initial _ _ _)
  exact ⟨w', run, filled_initial filled rfl⟩

include conversions in
theorem placeStorage_stored (self : v.ty = .self) (held : w.value v.loc = some x) :
    ∃ w', placeStorage b o .direct [v] w = .ok () w' ∧ Stored o x w.flag w w' := by
  obtain ⟨quiet, result, after⟩ :=
    conversions.scalar.construct w.trace w.value (.contained o) v x self held
  have values := World.called_value w [v.loc]
    (b w.trace (.construct .direct (.contained o) [v]) w.value).after
    (.construct .direct (.contained o) [v])
  refine ⟨(log (update w [v.loc] (b w.trace (.construct .direct (.contained o) [v]) w.value).after)
    (.construct .direct (.contained o) [v])).setCell o (.live x), ?_, rfl, ?_, fun l other => ?_, ?_⟩
  · have live : ((Call.construct .direct (.contained o) [v]).operands.all fun l =>
      (value w l).isSome) = true := by
      simp [Call.operands, show value w v.loc = some x from held]
    simp only [placeStorage, bind_apply, andThen, userCall, live, if_true]
    rw [show value w = w.value from rfl, show trace w = w.trace from rfl]
    simp only [settle, quiet, pure_apply, write_apply, result]
    rfl
  · rw [place_contained, if_pos rfl]
  · rw [place_contained, if_neg other, values]
    by_cases source : l = v.loc
    · rw [if_pos (by simp [source]), source, after, held]
    · rw [if_neg (by simp [source])]
  · simp [World.setCell, log, update, World.update, history, logged, builtin, self]

include conversions in
theorem memberCtor_stored (init : Bool) (absent : w.flag o = none) (self : v.ty = .self)
    (held : w.value v.loc = some x) :
    ∃ w', memberCtor b o init [v] w = .ok () w' ∧ Stored o x (setAt w.flag o (some init)) w w' := by
  have same : ∀ l, (w.setFlag o (some init)).value l = w.value l := w.setFlag_value o (some init)
  obtain ⟨w', run, stored⟩ := placeStorage_stored conversions (w := w.setFlag o (some init))
    (o := o) self
    ((same v.loc).trans held)
  refine ⟨w', ?_, stored.flag, stored.here, fun l other => (stored.others l other).trans (same l),
    stored.history⟩
  rw [memberCtor, bind_apply, andThen_ok (born_absent absent)]
  exact onThrow_ok run _

theorem bodyCtor_builds {how : Init} {body : Code α ε Unit} (absent : w.flag o = none)
    (quiet : w.scratch = none)
    (built : ∀ u, Alike w u → Builds b how args o u.flag (setAt u.flag o (some true)) w (body u)) :
    Builds b how args o w.flag (setAt w.flag o (some true)) w (bodyCtor o body w) := by
  rw [bodyCtor, bind_apply, andThen_ok (born_absent absent)]
  have builds :=
    built _ (setCell_alike (o := o) .indeterminate absent (setFlag_alike (o := o) (some false) quiet))
  rw [show ((w.setFlag o (some false)).setCell o .indeterminate).flag = setAt w.flag o
    (some false) from rfl,
    setAt_setAt] at builds
  exact builds_onThrow absent rfl builds fun t _ => releaseStorage_vanishes t

theorem bodyCtor_clears (absent : w.flag o = none) (quiet : w.scratch = none) :
    Clears o (setAt w.flag o (some false)) w ((bodyCtor o (pure ()) : Code α ε Unit) w) := by
  have alike := setCell_alike (o := o) .indeterminate absent (setFlag_alike (o := o) (some false) quiet)
  refine ⟨_, ?_, rfl, fun l visible _ => alike.value l visible, alike.history, alike.scratch⟩
  rw [bodyCtor, bind_apply, andThen_ok (born_absent absent)]
  rfl

include conversions in
theorem convCtor_builds {rhs : ObjId} (cat : Cat) (absent : w.flag o = none) (quiet : w.scratch = none)
    (full : w.flag rhs = some true) (live : (w.value (.contained rhs)).isSome = true) :
    Builds b .implicit [⟨.contained rhs, cat, .other⟩] o w.flag
      (setAt w.flag o (some true)) w (convCtor b o rhs cat w) := by
  obtain ⟨u, run, cleared⟩ := emptyBase_clears conversions absent quiet
  have passed : Passed w [⟨.contained rhs, cat, .other⟩] := passed_single full live
  have builds := construct_builds conversions (o := o) (v := ⟨.contained rhs, cat, .other⟩)
    (cleared.alike absent) nofun passed
  have apart : rhs ≠ o := by
    rintro rfl
    rw [absent] at full
    cases full
  have there : u.flag rhs = some true := by rw [cleared.flag, setAt, if_neg apart, full]
  rw [convCtor, bind_apply, andThen_ok run]
  refine builds_onThrow absent cleared.flag ?_ fun t _ => releaseStorage_vanishes t
  rw [bind_apply, andThen_ok (isInitialized_eq there)]
  rwa [cleared.flag, setAt_setAt, ← cleared.flag] at builds

include conversions in
theorem convCtor_clears {rhs : ObjId} (cat : Cat) (absent : w.flag o = none) (quiet : w.scratch = none)
    (empty : w.flag rhs = some false) :
    Clears o (setAt w.flag o (some false)) w (convCtor b o rhs cat w) := by
  obtain ⟨u, run, cleared⟩ := emptyBase_clears conversions absent quiet
  have apart : rhs ≠ o := by
    rintro rfl
    rw [absent] at empty
    cases empty
  have there : u.flag rhs = some false := by rw [cleared.flag, setAt, if_neg apart, empty]
  refine ⟨u, ?_, cleared⟩
  rw [convCtor, bind_apply, andThen_ok run]
  refine onThrow_ok ?_ _
  rw [bind_apply, andThen_ok (isInitialized_eq there)]
  rfl

end Direct

/-! ### optional_base -/

namespace Aligned

include conversions in
theorem construct_puts (alike : Alike w u) (empty : u.value (.contained o) = none) (self : v.ty = .self)
    (visible : Visible w v.loc) (held : w.value v.loc = some x) :
    Puts o x (setAt u.flag o (some true)) w (construct b o v u) := by
  rw [construct, bindParam_self b self]
  refine puts_of_stored alike (stored_setInit (constructT_stored conversions (v := { v with cat := v.cat.bound })
    self ?_ empty))
  rw [← held]
  exact alike.value v.loc visible

include conversions in
theorem construct_builds (alike : Alike w u) (empty : u.value (.contained o) = none)
    (other : v.ty ≠ .self)
    (passed : Passed w [v]) :
    Builds b .implicit [v] o u.flag (setAt u.flag o (some true)) w (construct b o v u) := by
  rw [construct, bindParam_other b other]
  refine throughScratch_builds conversions alike passed fun t y scratch flags occupied => ?_
  rw [← flags]
  refine stored_setInit (constructT_stored conversions rfl scratch ?_)
  have still := occupied (.contained o) nofun
  rw [empty] at still
  exact Option.isNone_iff_eq_none.mp (Option.isSome_eq_false_iff.mp still)

include conversions in
theorem assignValue_puts (alike : Alike w u) (live : (u.value (.contained o)).isSome = true)
    (self : v.ty = .self)
    (visible : Visible w v.loc) (held : w.value v.loc = some x) :
    Puts o x u.flag w (assignValue b o v u) := by
  have held' : u.value v.loc = some x := by
    rw [← held]
    exact alike.value v.loc visible
  rw [assignValue, bindParam_self b self, assignT_eq_assignment live (by rw [held']; rfl)]
  exact puts_of_stored alike (assignment_stored conversions (v := { v with cat := v.cat.bound }) self held')

include conversions in
theorem assignValue_builds (alike : Alike w u) (live : (u.value (.contained o)).isSome = true)
    (other : v.ty ≠ .self)
    (passed : Passed w [v]) : Builds b .implicit [v] o u.flag u.flag w (assignValue b o v u) := by
  rw [assignValue, bindParam_other b other]
  refine throughScratch_builds conversions alike passed fun t y scratch flags occupied => ?_
  have ready : (t.value .scratch).isSome = true := by
    rw [show t.value .scratch = some y from scratch]
    rfl
  rw [← flags, assignT_eq_assignment ((occupied (.contained o) nofun).trans live) ready]
  exact assignment_stored conversions rfl scratch

include conversions in
theorem build_builds (how : Init) (alike : Alike w u) (empty : u.value (.contained o) = none)
    (passed : Passed w args) :
    Builds b how args o u.flag (setAt u.flag o (some true)) w
      ((do constructT b how (.contained o) args; setInit o true : Code α ε Unit) u) :=
  builds_setInit (constructT_builds conversions alike passed empty)

theorem destroy_clears {init : Bool} (flag : w.flag o = some init)
    (live : (w.value (.contained o)).isSome = init)
    (quiet : w.scratch = none) :
    ∃ w', (destroy o w : Outcome (World α) ε Fault Unit) = .ok () w' ∧
      Cleared o (setAt w.flag o (some false)) w w' ∧
      w'.value (.contained o) = none := by
  rw [destroy, bind_apply, andThen_ok (isInitialized_eq flag)]
  cases init with
  | true =>
    refine ⟨(log (vacate w (.contained o)) (.destroy (.contained o))).setFlag o (some false), ?_,
      ⟨rfl, ?_, rfl, quiet⟩, ?_⟩
    · simp only [if_true, destroyImpl, bind_apply]
      rw [andThen_ok (destroyT_live live)]
      rfl
    · intro l visible other
      cases l with
      | contained p =>
        have apart : p ≠ o := fun same => other (congrArg Loc.contained same)
        simp [World.value, World.setFlag, log, vacate, World.vacate, World.setCell, apart]
      | scratch => exact (visible_not_scratch visible rfl).elim
      | var x => rfl
    · simp [World.value, World.setFlag, log, vacate, World.vacate, World.setCell, Cell.value?]
  | false =>
    exact ⟨w, rfl, ⟨(setAt_self flag).symm, fun _ _ _ => rfl, rfl, quiet⟩, by simpa using live⟩

theorem release_vanishes (t : World α) :
    ∃ t', (release o : Code α ε Unit) t = .ok () t' ∧ Vanished o t t' :=
  ⟨_, rfl, rfl, fun l _ => by cases l <;> rfl, rfl⟩

theorem baseDestructor_vanishes {t : World α} (empty : t.flag o = some false) :
    ∃ t', (baseDestructor o : Code α ε Unit) t = .ok () t' ∧ Vanished o t t' := by
  obtain ⟨t', run, vanished⟩ := release_vanishes (ε := ε) (o := o) t
  have idle : (destroy o : Code α ε Unit) t = .ok () t := by
    rw [destroy, bind_apply, andThen_ok (isInitialized_eq empty)]
    rfl
  exact ⟨t', (andThen_ok idle _).trans run, vanished⟩

theorem baseCtor_builds {how : Init} {body : Code α ε Unit} (absent : w.flag o = none)
    (quiet : w.scratch = none)
    (vacant : w.value (.contained o) = none)
    (built : ∀ u, Alike w u → u.value (.contained o) = none →
      Builds b how args o u.flag (setAt u.flag o (some true)) w (body u)) :
    Builds b how args o w.flag (setAt w.flag o (some true)) w (baseCtor o body w) := by
  rw [baseCtor, bind_apply, andThen_ok (born_absent absent)]
  have builds := built _ (setFlag_alike (o := o) (some false) quiet) vacant
  rw [show (w.setFlag o (some false)).flag = setAt w.flag o (some false) from rfl,
    setAt_setAt] at builds
  exact builds_onThrow absent rfl builds fun t _ => release_vanishes t

theorem baseCtor_puts {body : Code α ε Unit} (absent : w.flag o = none) (quiet : w.scratch = none)
    (vacant : w.value (.contained o) = none)
    (built : ∀ u, Alike w u → u.value (.contained o) = none → (∀ p, p ≠ o → u.flag p = w.flag p) →
      Puts o x (setAt u.flag o (some true)) w (body u)) :
    Puts o x (setAt w.flag o (some true)) w (baseCtor o body w) := by
  obtain ⟨w', run, put⟩ :=
    built _ (setFlag_alike (o := o) (some false) quiet) vacant fun _ other => if_neg other
  rw [show (w.setFlag o (some false)).flag = setAt w.flag o (some false) from rfl, setAt_setAt] at put
  refine ⟨w', ?_, put⟩
  rw [baseCtor, bind_apply, andThen_ok (born_absent absent)]
  exact onThrow_ok run _

theorem baseCtor_clears {body : Code α ε Unit} (absent : w.flag o = none) (quiet : w.scratch = none)
    (idle : ∀ u : World α, (∀ p, p ≠ o → u.flag p = w.flag p) → body u = .ok () u) :
    Clears o (setAt w.flag o (some false)) w (baseCtor o body w) := by
  obtain ⟨w', run, cleared⟩ := born_clears (ε := ε) (o := o) false absent quiet
  refine ⟨w', ?_, cleared⟩
  rw [baseCtor, bind_apply, andThen_ok run]
  exact onThrow_ok (idle w' fun p other => by rw [cleared.flag, setAt, if_neg other]) _

include conversions in
theorem convCtor_builds {rhs : ObjId} (cat : Cat) (absent : w.flag o = none) (quiet : w.scratch = none)
    (vacant : w.value (.contained o) = none) (full : w.flag rhs = some true)
    (live : (w.value (.contained rhs)).isSome = true) :
    Builds b .implicit [⟨.contained rhs, cat, .other⟩] o w.flag
      (setAt w.flag o (some true)) w (convCtor b o rhs cat w) := by
  have passed : Passed w [⟨.contained rhs, cat, .other⟩] := passed_single full live
  have builds := construct_builds conversions (o := o) (v := ⟨.contained rhs, cat, .other⟩)
    (setFlag_alike (o := o) (some false) quiet) vacant nofun passed
  have apart : rhs ≠ o := by
    rintro rfl
    rw [absent] at full
    cases full
  have there : (w.setFlag o (some false)).flag rhs = some true := (if_neg apart).trans full
  rw [convCtor, defaultCtor, bind_apply, andThen_ok (born_absent absent)]
  refine builds_onThrow absent rfl ?_ fun t flags => baseDestructor_vanishes ?_
  · rw [bind_apply, andThen_ok (isInitialized_eq there)]
    rwa [show (w.setFlag o (some false)).flag = setAt w.flag o (some false) from rfl,
      setAt_setAt] at builds
  · rw [flags]
    exact if_pos rfl

theorem convCtor_clears {rhs : ObjId} (cat : Cat) (absent : w.flag o = none) (quiet : w.scratch = none)
    (empty : w.flag rhs = some false) :
    Clears o (setAt w.flag o (some false)) w (convCtor b o rhs cat w) := by
  obtain ⟨u, run, cleared⟩ := born_clears (ε := ε) (o := o) false absent quiet
  have apart : rhs ≠ o := by
    rintro rfl
    rw [absent] at empty
    cases empty
  have there : u.flag rhs = some false := by rw [cleared.flag, setAt, if_neg apart, empty]
  refine ⟨u, ?_, cleared⟩
  rw [convCtor, defaultCtor, bind_apply, andThen_ok run]
  refine onThrow_ok ?_ _
  rw [bind_apply, andThen_ok (isInitialized_eq there)]
  rfl

end Aligned

end Functions

end BoostOptional
