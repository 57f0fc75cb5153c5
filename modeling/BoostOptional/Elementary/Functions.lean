import BoostOptional.Elementary.Actions

/-!
Every function of the three implementations, taken apart into elementary actions. A function may
administer its own optional, and hands to `T` the arguments that its caller gave it.
-/

namespace BoostOptional
open Effect Prog Memory

variable {α ε : Type} {b : Behaviour α ε} {P : Action → Prop} {o this rhs x y : ObjId}

/-- `T` may be constructed in `o` from `v`, and assigned from `v`. -/
structure Accepts (P : Action → Prop) (o : ObjId) (v : Arg) : Prop where
  construct : P (.construct .direct (.contained o) [v])
  assign : P (.assign (.contained o) v)

theorem constructT_uses {how : Init} {dst : Loc} {args : List Arg} (makes : P (.construct how dst args)) :
    Uses b P (constructT b how dst args : Code α ε Unit) :=
  uses_action (.construct how dst args) makes fun _ => trivial

theorem assignT_uses {dst : Loc} {v : Arg} (assigns : P (.assign dst v)) :
    Uses b P (assignT b dst v : Code α ε Unit) :=
  uses_action (.assign dst v) assigns fun _ => trivial

theorem invokeSwap_uses {l r : Loc} (swaps : P (.swap l r)) : Uses b P (invokeSwap b l r : Code α ε Unit) :=
  uses_action (.swap l r) swaps fun _ => trivial

section Administration

variable (owns : Administers P o)

include owns

theorem destroyT_uses : Uses b P (destroyT (.contained o) : Code α ε Unit) :=
  uses_action (.destroy (.contained o)) owns.destroy fun _ => trivial

theorem born_uses (init : Bool) : Uses b P (born o init : Code α ε Unit) :=
  uses_action (.born o init) (owns.born init) fun _ => trivial

theorem setInit_uses (init : Bool) : Uses b P (setInit o init : Code α ε Unit) :=
  uses_action (.setInit o init) (owns.setInit init) fun _ => trivial

theorem release_uses : Uses b P (release o : Code α ε Unit) :=
  uses_action (.release o) owns.release fun _ => trivial

theorem constructed_uses {how : Init} {args : List Arg} (makes : P (.construct how (.contained o) args)) :
    Uses b P (do constructT b how (.contained o) args; setInit o true) :=
  madeOf_bind (constructT_uses makes) fun _ => setInit_uses owns true

end Administration

/-! ### detail/union_optional.hpp -/

namespace Union

variable (E : Element α) {args : List Arg} {v : Arg}

section Own

variable (owns : Administers P o)

include owns

theorem inPlaceStorage_uses (makes : P (.construct .direct (.contained o) args)) :
    Uses b P (inPlaceStorage b o args) :=
  madeOf_bind (born_uses owns true) fun _ =>
    madeOf_onThrow (constructT_uses makes) (release_uses owns) (silent_write _)

theorem reset_uses : Uses b P (reset E o : Code α ε Unit) := by
  refine madeOf_ite (fun _ => ?_) fun _ => ?_
  · exact madeOf_bind (giveUp_uses owns.giveUp) fun _ => setInit_uses owns false
  · refine whenInitialized_uses ?_ (madeOf_pure _)
    exact madeOf_bind (destroyT_uses owns) fun _ => setInit_uses owns false

theorem destructor_uses : Uses b P (destructor E o : Code α ε Unit) := by
  refine madeOf_ite (fun _ => ?_) fun _ => ?_
  · exact madeOf_bind (giveUp_uses owns.giveUp) fun _ => release_uses owns
  · refine whenInitialized_uses ?_ (release_uses owns)
    exact madeOf_bind (destroyT_uses owns) fun _ => release_uses owns

theorem initializeT_uses (makes : P (.construct .direct (.contained o) args)) :
    Uses b P (initializeT b o args) :=
  madeOf_bind (whenInitialized_uses (madeOf_fail _) (madeOf_pure _)) fun _ => constructed_uses owns makes

theorem withStorage_uses {body : Code α ε Unit} (inner : Uses b P body) :
    Uses b P (withStorage E o body) :=
  madeOf_bind (born_uses owns false) fun _ =>
    madeOf_onThrow inner (destructor_uses E owns) (destructor_silent E)

theorem condStorage_uses (constexprCopy cond : Bool) (makes : P (.construct .direct (.contained o) args)) :
    Uses b P (inPlaceIfCtor E b constexprCopy o cond args) := by
  refine madeOf_ite (fun _ => ?_) fun _ => ?_
  · exact madeOf_ite (fun _ => inPlaceStorage_uses owns makes) fun _ => born_uses owns false
  · refine withStorage_uses E owns (madeOf_ite (fun _ => ?_) fun _ => madeOf_pure _)
    exact initializeT_uses owns makes

theorem optionalCtor_uses (constexprCopy : Bool) {cat : Cat} {ty : ArgTy}
    (makes : P (.construct .direct (.contained o) [⟨.contained rhs, cat, ty⟩])) :
    Uses b P (optionalCtor E b constexprCopy o rhs cat ty) := by
  refine madeOf_ite (fun _ => ?_) fun _ => ?_
  · exact whenInitialized_uses (inPlaceStorage_uses owns makes) (born_uses owns false)
  · exact withStorage_uses E owns (whenInitialized_uses (initializeT_uses owns makes) (madeOf_pure _))

theorem factoryCtor_uses {how : Init} (makes : P (.construct how (.contained o) args)) :
    Uses b P (factoryCtor E b o how args) :=
  withStorage_uses E owns (constructed_uses owns makes)

end Own

theorem valueCtor_uses (owns : Administers P o)
    (makes : ∀ cat, cat = v.cat ∨ cat = v.cat.bound →
      P (.construct .direct (.contained o) [{ v with cat := cat }])) :
    Uses b P (valueCtor b o v) := by
  obtain ⟨loc, cat, ty⟩ := v
  cases cat with
  | lvalue => exact inPlaceStorage_uses owns (makes .lvalue (.inl rfl))
  | constLvalue | rvalue => exact inPlaceStorage_uses owns (makes _ (.inr rfl))

section Target

variable (owns : Administers P this)

include owns

theorem emplace_uses (makes : P (.construct .direct (.contained this) args)) :
    Uses b P (emplace E b this args) :=
  madeOf_bind (reset_uses E owns) fun _ => initializeT_uses owns makes

theorem assignFactory_uses {how : Init} (makes : P (.construct how (.contained this) args)) :
    Uses b P (assignFactory E b this how args) :=
  madeOf_bind (reset_uses E owns) fun _ => constructed_uses owns makes

theorem assignFrom_uses {test : Code α ε Bool} (tests : Uses b P test) (accepts : Accepts P this v) :
    Uses b P (assignFrom E b this test v) := by
  refine whenInitialized_uses ?_ ?_
  · exact madeOf_bind tests fun _ =>
      madeOf_ite (fun _ => assignT_uses accepts.assign) fun _ => reset_uses E owns
  · exact madeOf_bind tests fun _ =>
      madeOf_ite (fun _ => initializeT_uses owns accepts.construct) fun _ => madeOf_pure _

theorem assignForward_uses (accepts : Accepts P this v) : Uses b P (assignForward b this v) :=
  whenInitialized_uses (assignT_uses accepts.assign) (initializeT_uses owns accepts.construct)

theorem assignFromT_uses (temporary : Administers P .temporary)
    (scalar : E.isScalar = true →
      P (.construct .direct (.contained .temporary) [{ v with cat := v.cat.bound }]) ∧
        Accepts P this ⟨.contained .temporary, .rvalue, .self⟩)
    (forwards : E.isScalar = false → Accepts P this v)
    (inner : E.isScalar = false → E.hasValue.isSome = true → Accepts P this ⟨v.loc, v.cat, .inner⟩) :
    Uses b P (assignFromT E b this v) := by
  refine madeOf_ite (fun isScalar => ?_) fun isScalar => ?_
  · obtain ⟨makes, moves⟩ := scalar isScalar
    refine madeOf_bind (inPlaceStorage_uses temporary makes) fun _ => ?_
    exact madeOf_bracket (assignFrom_uses E owns isInitialized_uses moves)
      (destructor_uses E temporary) (destructor_silent E)
  · have accepts := forwards isScalar
    obtain ⟨loc, cat, ty⟩ := v
    cases tested : E.hasValue with
    | none => exact assignForward_uses owns accepts
    | some hasValue =>
      have collapses := inner isScalar (by rw [tested]; rfl)
      cases cat with
      | lvalue => exact assignForward_uses owns accepts
      | constLvalue | rvalue => exact assignFrom_uses E owns (innerHasValue_uses _ _) collapses

end Target

theorem swap_uses (ownsX : Administers P x) (ownsY : Administers P y)
    (swaps : P (.swap (.contained x) (.contained y)))
    (intoX : P (.construct .direct (.contained x) [⟨.contained y, .rvalue, .self⟩]))
    (intoY : P (.construct .direct (.contained y) [⟨.contained x, .rvalue, .self⟩])) :
    Uses b P (swap E b x y) := by
  refine whenInitialized_uses ?_ ?_
  · refine whenInitialized_uses (invokeSwap_uses swaps) ?_
    exact madeOf_bind (initializeT_uses ownsY intoY) fun _ => reset_uses E ownsX
  · refine whenInitialized_uses ?_ (madeOf_pure _)
    exact madeOf_bind (initializeT_uses ownsX intoX) fun _ => reset_uses E ownsY

end Union

/-! ### detail/optional_swap.hpp -/

section Selector

variable {ops : LegacyOps α ε}

theorem optionalSwapMove_uses (clears : ∀ o, o = x ∨ o = y → Uses b P (ops.assignNone o))
    (swaps : P (.swap (.contained x) (.contained y)))
    (intoX : Uses b P (ops.assignFromT x ⟨.contained y, .rvalue, .self⟩))
    (intoY : Uses b P (ops.assignFromT y ⟨.contained x, .rvalue, .self⟩)) :
    Uses b P (optionalSwapMove b ops x y) := by
  refine whenInitialized_uses ?_ ?_
  · refine whenInitialized_uses ?_ ?_
    · exact getLoc_uses (getLoc_uses (invokeSwap_uses swaps))
    · exact getLoc_uses (madeOf_bind intoY fun _ => clears x (.inl rfl))
  · refine whenInitialized_uses ?_ (madeOf_pure _)
    exact getLoc_uses (madeOf_bind intoX fun _ => clears y (.inr rfl))

theorem optionalSwapDefault_uses (clears : ∀ o, o = x ∨ o = y → Uses b P (ops.assignNone o))
    (swaps : P (.swap (.contained x) (.contained y)))
    (emplaces : ∀ o, o = x ∨ o = y → Uses b P (ops.emplace o [])) :
    Uses b P (optionalSwapDefault b ops x y) := by
  have clearX := clears x (.inl rfl)
  have clearY := clears y (.inr rfl)
  have rest : ∀ hasX hasY : Bool, Uses b P (do
      let l ← getLoc x
      let r ← getLoc y
      invokeSwap b l r
      if !hasX then ops.assignNone y else if !hasY then ops.assignNone x else pure ()) := by
    intro hasX hasY
    refine getLoc_uses (getLoc_uses (madeOf_bind (invokeSwap_uses swaps) fun _ => ?_))
    exact madeOf_ite (fun _ => clearY) fun _ => madeOf_ite (fun _ => clearX) fun _ => madeOf_pure _
  refine madeOf_bind isInitialized_uses fun hasX => madeOf_bind isInitialized_uses fun hasY =>
    madeOf_ite (fun _ => madeOf_pure _) fun _ => madeOf_ite (fun _ => ?_) fun _ => ?_
  · exact madeOf_bind (emplaces x (.inl rfl)) fun _ => rest hasX hasY
  · refine madeOf_ite (fun _ => ?_) fun _ => rest hasX hasY
    exact madeOf_bind (emplaces y (.inr rfl)) fun _ => rest hasX hasY

end Selector

/-! ### optional_base -/

namespace Aligned

variable {args : List Arg} {v : Arg}

section Own

variable (owns : Administers P o)

include owns

theorem construct_uses (converts : Converting P v)
    (makes : P (.construct .direct (.contained o) [v.received])) : Uses b P (construct b o v) :=
  bindParam_uses converts (constructed_uses owns makes)

theorem destroy_uses : Uses b P (destroy o : Code α ε Unit) :=
  whenInitialized_uses (madeOf_bind (destroyT_uses owns) fun _ => setInit_uses owns false) (madeOf_pure _)

theorem baseCtor_uses {body : Code α ε Unit} (inner : Uses b P body) : Uses b P (baseCtor o body) :=
  madeOf_bind (born_uses owns false) fun _ =>
    madeOf_onThrow inner (release_uses owns) (silent_write _)

theorem baseDestructor_uses : Uses b P (baseDestructor o : Code α ε Unit) :=
  madeOf_bind (destroy_uses owns) fun _ => release_uses owns

theorem convCtor_uses {cat : Cat} (converts : Converting P ⟨.contained rhs, cat, .other⟩)
    (makes : P (.construct .direct (.contained o) [⟨.scratch, .rvalue, .self⟩])) :
    Uses b P (convCtor b o rhs cat) := by
  refine madeOf_bind (born_uses owns false) fun _ =>
    madeOf_onThrow ?_ (baseDestructor_uses owns)
      (silent_bind destroy_silent fun _ => silent_write _)
  exact whenInitialized_uses (construct_uses owns converts makes) (madeOf_pure _)

theorem baseCopyCtor_uses {cat : Cat}
    (makes : P (.construct .direct (.contained o) [⟨.contained rhs, cat.bound, .self⟩])) :
    Uses b P (baseCopyCtor b o rhs cat) := by
  have own : Converting P ⟨.contained rhs, cat, .self⟩ := .own rfl
  exact baseCtor_uses owns (whenInitialized_uses (construct_uses owns own makes) (madeOf_pure _))

theorem assignFrom_uses {test : Code α ε Bool} (tests : Uses b P test) (converts : Converting P v)
    (accepts : Accepts P o v.received) : Uses b P (assignFrom b o test v) := by
  refine whenInitialized_uses ?_ ?_
  · exact madeOf_bind tests fun _ => madeOf_ite
      (fun _ => bindParam_uses converts (assignT_uses accepts.assign)) fun _ => destroy_uses owns
  · exact madeOf_bind tests fun _ => madeOf_ite
      (fun _ => construct_uses owns converts accepts.construct) fun _ => madeOf_pure _

theorem assign_uses (converts : Converting P v) (accepts : Accepts P o v.received) :
    Uses b P (assign b o v) :=
  whenInitialized_uses (bindParam_uses converts (assignT_uses accepts.assign))
    (construct_uses owns converts accepts.construct)

theorem assignExpr_uses (converts : Converting P v) (assigns : P (.assign (.contained o) v.received))
    (makes : P (.construct .direct (.contained o) [v])) : Uses b P (assignExpr b o v) :=
  whenInitialized_uses (bindParam_uses converts (assignT_uses assigns)) (constructed_uses owns makes)

theorem assignFactory_uses {how : Init} (makes : P (.construct how (.contained o) args)) :
    Uses b P (assignFactory b o how args) :=
  whenInitialized_uses (madeOf_bind (destroy_uses owns) fun _ => constructed_uses owns makes)
    (constructed_uses owns makes)

theorem emplace_uses (makes : P (.construct .direct (.contained o) args)) :
    Uses b P (emplace b o args) :=
  madeOf_bind (destroy_uses owns) fun _ => constructed_uses owns makes

end Own

theorem swap_uses (useDefault : Bool) (ownsX : Administers P x) (ownsY : Administers P y)
    (swaps : P (.swap (.contained x) (.contained y)))
    (defaults : useDefault = true →
      P (.construct .direct (.contained x) []) ∧ P (.construct .direct (.contained y) []))
    (moves : useDefault = false →
      Accepts P x ⟨.contained y, .rvalue, .self⟩ ∧ Accepts P y ⟨.contained x, .rvalue, .self⟩) :
    Uses b P (swap b useDefault x y) := by
  have clears : ∀ o, o = x ∨ o = y → Uses b P (assignNone o : Code α ε Unit) := by
    rintro o (rfl | rfl)
    · exact destroy_uses ownsX
    · exact destroy_uses ownsY
  refine madeOf_ite (fun chosen => ?_) fun chosen => ?_
  · refine optionalSwapDefault_uses clears swaps ?_
    obtain ⟨intoX, intoY⟩ := defaults chosen
    rintro o (rfl | rfl)
    · exact emplace_uses ownsX intoX
    · exact emplace_uses ownsY intoY
  · obtain ⟨intoX, intoY⟩ := moves chosen
    exact optionalSwapMove_uses clears swaps (assign_uses ownsX (.own rfl) intoX)
      (assign_uses ownsY (.own rfl) intoY)

end Aligned

/-! ### tc_optional_base -/

namespace Direct

variable {args : List Arg} {v : Arg}

theorem assignStorage_uses (assigns : P (.assignStorage o v)) : Uses b P (assignStorage b o v) :=
  uses_action (.assignStorage o v) assigns fun _ => trivial

theorem placeStorage_uses {how : Init} (makes : P (.placeStorage o how args)) :
    Uses b P (placeStorage b o how args) :=
  uses_action (.placeStorage o how args) makes fun _ => trivial

theorem assignPrvalue_uses {how : Init} (makes : P (.construct how .scratch args))
    (destroys : P (.destroy .scratch)) (moves : P (.assignStorage o ⟨.scratch, .rvalue, .self⟩)) :
    Uses b P (assignPrvalue b o how args) :=
  madeOf_bind (constructT_uses makes) fun _ =>
    madeOf_bracket (assignStorage_uses moves) (uses_action (.destroy .scratch) destroys fun _ => trivial)
      destroyT_silent

section Own

variable (owns : Administers P o)

include owns

theorem releaseStorage_uses : Uses b P (releaseStorage o : Code α ε Unit) :=
  uses_action (.releaseStorage o) owns.releaseStorage fun _ => trivial

theorem construct_uses (converts : Converting P v)
    (assigns : P (.assignStorage o { v.received with cat := .constLvalue })) :
    Uses b P (construct b o v) :=
  bindParam_uses converts (madeOf_bind (assignStorage_uses assigns) fun _ => setInit_uses owns.toAdministers true)

theorem constructInPlace_uses (makes : P (.construct .direct .scratch args))
    (destroys : P (.destroy .scratch)) (moves : P (.assignStorage o ⟨.scratch, .rvalue, .self⟩)) :
    Uses b P (constructInPlace b o args) :=
  madeOf_bind (assignPrvalue_uses makes destroys moves) fun _ => setInit_uses owns.toAdministers true

theorem constructFactory_uses {how : Init} (makes : P (.placeStorage o how args)) :
    Uses b P (constructFactory b o how args) :=
  madeOf_bind (placeStorage_uses makes) fun _ => setInit_uses owns.toAdministers true

theorem memberCtor_uses {init : Bool} (makes : P (.placeStorage o .direct args)) :
    Uses b P (memberCtor b o init args) :=
  madeOf_bind (born_uses owns.toAdministers init) fun _ =>
    madeOf_onThrow (placeStorage_uses makes) (releaseStorage_uses owns) (silent_write _)

theorem bodyCtor_uses {body : Code α ε Unit} (inner : Uses b P body) : Uses b P (bodyCtor o body) :=
  madeOf_bind (born_uses owns.toAdministers false) fun _ =>
    madeOf_bind (uses_action (.leaveStorage o) owns.leaveStorage fun _ => trivial) fun _ =>
      madeOf_onThrow inner (releaseStorage_uses owns) (silent_write _)

theorem memberwiseCtor_uses {cat : Cat} (makes : P (.placeStorage o .direct [⟨.contained rhs, cat, .self⟩])) :
    Uses b P (memberwiseCtor b o rhs cat) :=
  madeOf_bind isInitialized_uses fun _ => memberCtor_uses owns makes

theorem convCtor_uses {cat : Cat} (starts : P (.placeStorage o .direct []))
    (converts : Converting P ⟨.contained rhs, cat, .other⟩)
    (assigns : P (.assignStorage o ⟨.scratch, .constLvalue, .self⟩)) :
    Uses b P (convCtor b o rhs cat) := by
  refine madeOf_bind (memberCtor_uses owns starts) fun _ =>
    madeOf_onThrow ?_ (releaseStorage_uses owns) (silent_write _)
  exact whenInitialized_uses (construct_uses owns converts assigns) (madeOf_pure _)

theorem memberwiseAssign_uses {cat : Cat} (assigns : P (.assignStorage o ⟨.contained rhs, cat, .self⟩)) :
    Uses b P (memberwiseAssign b o rhs cat) :=
  madeOf_bind isInitialized_uses fun init => madeOf_bind (setInit_uses owns.toAdministers init) fun _ =>
    assignStorage_uses assigns

theorem assignFrom_uses {cat : Cat} (makes : P (.construct .implicit .scratch [⟨.contained rhs, cat, .other⟩]))
    (destroys : P (.destroy .scratch)) (moves : P (.assignStorage o ⟨.scratch, .rvalue, .self⟩)) :
    Uses b P (assignFrom b o rhs cat) := by
  have flag : Uses b P (do let init ← isInitialized rhs; setInit o init : Code α ε Unit) :=
    madeOf_bind isInitialized_uses fun init => setInit_uses owns.toAdministers init
  refine whenInitialized_uses ?_ flag
  exact madeOf_bind (assignPrvalue_uses makes destroys moves) fun _ => flag

end Own

theorem swap_uses (useDefault : Bool) (ownsX : Administers P x) (ownsY : Administers P y)
    (swaps : P (.swap (.contained x) (.contained y))) (destroys : P (.destroy .scratch))
    (defaults : useDefault = true → P (.construct .direct .scratch []) ∧
      P (.assignStorage x ⟨.scratch, .rvalue, .self⟩) ∧ P (.assignStorage y ⟨.scratch, .rvalue, .self⟩))
    (copies : useDefault = false → P (.assignStorage x ⟨.contained y, .constLvalue, .self⟩) ∧
      P (.assignStorage y ⟨.contained x, .constLvalue, .self⟩)) :
    Uses b P (swap b useDefault x y) := by
  have clears : ∀ o, o = x ∨ o = y → Uses b P (assignNone o : Code α ε Unit) := by
    rintro o (rfl | rfl)
    · exact setInit_uses ownsX.toAdministers false
    · exact setInit_uses ownsY.toAdministers false
  refine madeOf_ite (fun chosen => ?_) fun chosen => ?_
  · refine optionalSwapDefault_uses clears swaps ?_
    obtain ⟨makes, intoX, intoY⟩ := defaults chosen
    rintro o (rfl | rfl)
    · exact constructInPlace_uses ownsX makes destroys intoX
    · exact constructInPlace_uses ownsY makes destroys intoY
  · obtain ⟨intoX, intoY⟩ := copies chosen
    refine optionalSwapMove_uses clears swaps ?_ ?_
    · exact construct_uses (v := ⟨.contained y, .rvalue, .self⟩) ownsX (.own rfl) intoX
    · exact construct_uses (v := ⟨.contained x, .rvalue, .self⟩) ownsY (.own rfl) intoY

end Direct

end BoostOptional
