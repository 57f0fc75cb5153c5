import BoostOptional.Refinement.UnionImpl
import BoostOptional.Swap.Selector

/-!
The aligned-storage implementation refines the documented optional, with either swap.
-/

namespace BoostOptional.Aligned
open Effect Prog Memory

variable {α ε : Type} (b : Behaviour α ε)

/-! ### optional_base -/

theorem destroy_implements (o : ObjId) : Implements (destroy o : Code α ε Unit) (Spec.clear o) := by
  intro w s rep
  unfold destroy destroyImpl Spec.clear
  cases content : s.content o with
  | none => exact match_fault _ _
  | some c =>
    have flag := rep.flag_of_content content
    cases c with
    | none =>
      simp only [bind_apply, andThen, isInitialized, flag]
      exact ⟨rfl, rep⟩
    | some v =>
      have here : (value s (.contained o)).isSome = true := by simp [value, Spec.State.value, content]
      have here' : (value w (.contained o)).isSome = true := by rw [rep.value_eq]; exact here
      simp only [bind_apply, andThen, isInitialized, flag, Option.isSome_some, if_true,
        destroyT_live here, destroyT_live here']
      exact ⟨rfl, (rep.setContent o .vacant none rfl).log _⟩

theorem baseDestructor_implements (o : ObjId) :
    Implements (baseDestructor o : Code α ε Unit) (Spec.destroy o) :=
  refines_bind (destroy_implements o) fun _ => release_implements o

theorem baseDestructor_vanish (o : ObjId) :
    Implements (baseDestructor o : Code α ε Unit) (Spec.vanish o) := by
  intro w s rep
  have destroyed := baseDestructor_implements (ε := ε) o w s rep
  cases content : s.content o with
  | none => simp only [Spec.vanish, content]; exact match_fault _ _
  | some c =>
    cases c with
    | none => simpa only [Spec.destroy, bind_apply, andThen, Spec.clear, content] using destroyed
    | some v => simp only [Spec.vanish, content]; exact match_fault _ _

theorem construct_implements (o : ObjId) (v : Arg) :
    Implements (construct b o v) (Spec.createFrom b .bound o v) :=
  bindParam_implements b v fun _ => BoostOptional.construct_implements b .direct o _

theorem assignValue_implements (o : ObjId) (v : Arg) :
    Implements (assignValue b o v) (Spec.updateFrom b .bound o v) :=
  bindParam_implements b v fun _ => assignT_implements b _ _

theorem baseCtor_implements (o : ObjId) {body : Code α ε Unit} {body' : Spec.Doc α ε Unit}
    (same : Implements body body') : Implements (baseCtor o body) (Spec.newOptional o body') :=
  refines_bind (born_implements o) fun _ => refines_onThrow same (release_implements o)

theorem assignFrom_implements (this : ObjId) {rhsHasValue : Code α ε Bool}
    {rhsHasValue' : Spec.Doc α ε Bool}
    (same : Implements rhsHasValue rhsHasValue') (v : Arg) :
    Implements (assignFrom b this rhsHasValue v) (Spec.assignFrom b .bound this rhsHasValue' v) :=
  refines_bind (isInitialized_implements this) fun _ => refines_ite
    (refines_bind same fun _ => refines_ite (assignValue_implements b _ _) (destroy_implements this))
    (refines_bind same fun _ => refines_ite (construct_implements b this _) (refines_pure ()))

theorem assign_implements (this : ObjId) (v : Arg) :
    Implements (assign b this v) (Spec.assignValue b .bound .bound this v) :=
  refines_bind (isInitialized_implements this) fun _ =>
    refines_ite (assignValue_implements b _ _) (construct_implements b this v)

theorem assignExpr_implements (this : ObjId) (v : Arg) :
    Implements (assignExpr b this v) (Spec.assignValue b .bound .forwarded this v) :=
  refines_bind (isInitialized_implements this) fun _ =>
    refines_ite (assignValue_implements b _ _) (BoostOptional.construct_implements b .direct this _)

theorem emplaceAssign_implements (this : ObjId) (args : List Arg) :
    Implements (emplaceAssign b this args) (Spec.emplace b .direct this args) :=
  refines_bind (destroy_implements this) fun _ => BoostOptional.construct_implements b .direct this args

theorem assignExprFactory_implements (this : ObjId) (how : Init) (args : List Arg) :
    Implements (assignExprFactory b this how args) (Spec.emplace b how this args) := by
  -- `assign_expr` destroys only when there is a value, which is what clearing does.
  intro w s rep
  have built : Implements (do destroy this; constructFactory b this how args) (Spec.emplace b how this args) :=
    refines_bind (destroy_implements this) fun _ => BoostOptional.construct_implements b how this args
  have step := built w s rep
  cases content : s.content this with
  | none =>
    simp only [Spec.emplace, bind_apply, andThen, Spec.clear, content]
    exact match_fault _ _
  | some c =>
    have flag := rep.flag_of_content content
    cases c with
    | none =>
      simp only [Option.isSome_none] at flag
      simp only [assignExprFactory, bind_apply, andThen, isInitialized, flag]
      simpa [destroy, andThen, isInitialized, flag] using step
    | some v =>
      simp only [Option.isSome_some] at flag
      simpa [assignExprFactory, andThen, isInitialized, flag] using step

/-! ### Swap -/

theorem getLoc_implements (o : ObjId) {next : Loc → Code α ε Unit} {next' : Spec.Doc α ε Unit}
    (same : Implements (next (.contained o)) next')
    (needs : ∀ s : Spec.State α, (∀ v, s.content o ≠ some (some v)) → ∃ f, next' s = .fault f) :
    Implements (getLoc o >>= next) next' := by
  intro w s rep
  cases content : s.content o with
  | none =>
    obtain ⟨f, faults⟩ := needs s (by simp [content])
    rw [faults]
    exact match_fault _ _
  | some c =>
    have flag := rep.flag_of_content content
    cases c with
    | none =>
      obtain ⟨f, faults⟩ := needs s (by simp [content])
      rw [faults]
      exact match_fault _ _
    | some v =>
      have step := same w s rep
      simp only [Option.isSome_some] at flag
      simpa [getLoc, andThen, isInitialized, flag] using step

theorem assign_creates (this : ObjId) (v : Arg) :
    Implements (assign b this ⟨v.loc, .rvalue, .self⟩)
      (Spec.create b .direct this [⟨v.loc, .rvalue, .self⟩]) := by
  intro w s rep
  have step : (construct b this ⟨v.loc, .rvalue, .self⟩ w).Match Represents
      (Spec.create b .direct this [⟨v.loc, .rvalue, .self⟩] s) :=
    construct_implements b this ⟨v.loc, .rvalue, .self⟩ w s rep
  cases content : s.content this with
  | none => simp only [Spec.create, content]; exact match_fault _ _
  | some c =>
    cases c with
    | some _ => simp only [Spec.create, content]; exact match_fault _ _
    | none =>
      have flag : w.flag this = some false := rep.flag_of_content content
      simp only [assign, bind_apply, andThen, isInitialized, flag]
      exact step

theorem emplace_creates (this : ObjId) (args : List Arg) :
    Implements (emplace b this args) (Spec.create b .direct this args) := by
  intro w s rep
  have step := emplaceAssign_implements b this args w s rep
  cases content : s.content this with
  | none => simp only [Spec.create, content]; exact match_fault _ _
  | some c =>
    cases c with
    | some _ => simp only [Spec.create, content]; exact match_fault _ _
    | none => simpa only [emplace, Spec.emplace, bind_apply, andThen, Spec.clear, content] using step

theorem swapValues_implements (x y : ObjId) {rest : Code α ε Unit} {rest' : Spec.Doc α ε Unit}
    (same : Implements rest rest') :
    Implements (swapValues b x y rest) (do invokeSwap b (.contained x) (.contained y); rest') := by
  -- The two `get()` calls assert what swapping two values needs.
  refine getLoc_implements x (getLoc_implements y (refines_bind (invokeSwap_implements b _ _)
    fun _ => same) ?_) ?_
  · exact fun s empty => Spec.invokeSwap_fault b _ (.inr empty)
  · exact fun s empty => Spec.invokeSwap_fault b _ (.inl empty)

theorem moveAcross_implements (dst src : ObjId) :
    Implements (moveAcross (legacyOps b) dst src) (Spec.transfer b dst src) :=
  refines_bind (assign_creates b dst ⟨.contained src, .rvalue, .self⟩) fun _ => destroy_implements src

theorem optionalSwapMove_implements (x y : ObjId) :
    Implements (optionalSwapMove b (legacyOps b) x y) (Spec.swap b x y) := by
  intro w s rep
  cases cx : s.content x with
  | none =>
    rw [Spec.swap, bind_apply, andThen, Spec.engaged_absent cx]
    exact match_fault _ _
  | some c =>
    cases cy : s.content y with
    | none =>
      rw [Spec.swap, bind_apply, andThen_ok (Spec.engaged_content cx)]
      cases c <;> simpa [andThen, Spec.engaged_absent cy] using match_fault _ _
    | some d =>
      rw [optionalSwapMove_eq (legacyOps b) (rep.flag_of_content cx) (rep.flag_of_content cy),
        Spec.swap_eq b (Spec.engaged_content cx) (Spec.engaged_content cy)]
      cases c with
      | some _ =>
        cases d with
        | some _ => exact invokeSwap_implements b (.contained x) (.contained y) w s rep
        | none => exact moveAcross_implements b y x w s rep
      | none =>
        cases d with
        | some _ => exact moveAcross_implements b x y w s rep
        | none => exact ⟨rfl, rep⟩

theorem throughDefault_implements (dst src x y : ObjId) :
    Implements (do emplace b dst []; swapValues b x y (destroy src))
      (do Spec.create b .direct dst []; invokeSwap b (.contained x) (.contained y); Spec.clear src) :=
  refines_bind (emplace_creates b dst []) fun _ => swapValues_implements b x y (destroy_implements src)

theorem optionalSwapDefault_implements (x y : ObjId) :
    Implements (optionalSwapDefault b (legacyOps b) x y) (Spec.swapDefault b x y) := by
  intro w s rep
  cases cx : s.content x with
  | none =>
    rw [Spec.swapDefault, bind_apply, andThen, Spec.engaged_absent cx]
    exact match_fault _ _
  | some c =>
    cases cy : s.content y with
    | none =>
      rw [Spec.swapDefault, bind_apply, andThen_ok (Spec.engaged_content cx)]
      cases c <;> simpa [andThen, Spec.engaged_absent cy] using match_fault _ _
    | some d =>
      rw [optionalSwapDefault_eq (legacyOps b) (rep.flag_of_content cx) (rep.flag_of_content cy),
        Spec.swapDefault_eq b (Spec.engaged_content cx) (Spec.engaged_content cy)]
      cases c with
      | some _ =>
        cases d with
        | some _ => exact invokeSwap_implements b (.contained x) (.contained y) w s rep
        | none => exact throughDefault_implements b y x x y w s rep
      | none =>
        cases d with
        | some _ => exact throughDefault_implements b x y x y w s rep
        | none => exact ⟨rfl, rep⟩

theorem swap_implements (useDefault : Bool) (x y : ObjId) :
    Implements (swap b useDefault x y)
      ((if useDefault then Spec.swapDefault b else Spec.swap b) x y) := by
  unfold swap legacySwap
  cases useDefault with
  | false => exact optionalSwapMove_implements b x y
  | true => exact optionalSwapDefault_implements b x y

/-! ### Constructors -/

theorem baseCopyCtor_implements (o rhs : ObjId) (cat : Cat) :
    Implements (baseCopyCtor b o rhs cat)
      (Spec.newFrom b .bound o (Spec.engaged rhs) ⟨.contained rhs, cat, .self⟩) :=
  baseCtor_implements o (refines_bind (isInitialized_implements rhs) fun _ =>
    refines_ite (construct_implements b o _) (refines_pure ()))

theorem convCtor_implements (o rhs : ObjId) (cat : Cat) :
    Implements (convCtor b o rhs cat)
      (Spec.newFrom b .bound o (Spec.engaged rhs) ⟨.contained rhs, cat, .other⟩) :=
  refines_bind (born_implements o) fun _ => refines_onThrow
    (refines_bind (isInitialized_implements rhs) fun _ =>
      refines_ite (construct_implements b o _) (refines_pure ()))
    (baseDestructor_vanish o)

/-- Every operation of the aligned-storage implementation does what the document says. -/
theorem exec_implements (E : Element α) (useDefault : Bool) (op : Op) :
    Implements (exec b useDefault op) (Spec.exec b (Spec.style b E (.aligned useDefault)) op) := by
  cases op with
  | defaultCtor o => exact born_implements _
  | noneCtor o => exact born_implements _
  | valueCtor o src cat => exact baseCtor_implements _ (construct_implements b _ _)
  | condCtor o cond src cat =>
    exact baseCtor_implements _ (refines_ite (construct_implements b _ _) (refines_pure ()))
  | inPlaceCtor o args => exact baseCtor_implements _ (BoostOptional.construct_implements b .direct _ _)
  | inPlaceIfCtor o cond args =>
    exact baseCtor_implements _
      (refines_ite (BoostOptional.construct_implements b .direct _ _) (refines_pure ()))
  | copyCtor o rhs | moveCtor o rhs => exact baseCopyCtor_implements b _ _ _
  | convCopyCtor o rhs | convMoveCtor o rhs => exact convCtor_implements b _ _ _
  | factoryCtor o typed args =>
    exact baseCtor_implements _ (BoostOptional.construct_implements b _ _ _)
  | exprCtor o src cat => exact baseCtor_implements _ (BoostOptional.construct_implements b .direct _ _)
  | assignNone this => exact destroy_implements _
  | assignFromT this src cat => exact assign_implements b _ _
  | assignFromU this src cat => exact assignExpr_implements b _ _
  | copyAssign this rhs | moveAssign this rhs | convCopyAssign this rhs | convMoveAssign this rhs =>
    exact assignFrom_implements b _ (isInitialized_implements _) _
  | assignFactory this typed args => exact assignExprFactory_implements b _ _ _
  | emplace this args => exact emplaceAssign_implements b _ _
  | reset this => exact destroy_implements _
  | resetValue this src => exact assign_implements b _ _
  | swap x y => exact swap_implements b useDefault _ _
  | destroy o => exact baseDestructor_implements _

end BoostOptional.Aligned

namespace BoostOptional

theorem Impl.exec_implements {α ε : Type} (E : Element α) (b : Behaviour α ε) (impl : Impl) (op : Op)
    (fresh : ∀ o ∈ op.creates, o ∉ op.objects) :
    Implements (impl.exec E b op) (Spec.exec b (Spec.style b E impl) op) := by
  cases impl with
  | union constexprCopy => exact Union.exec_implements E b constexprCopy op fresh
  | aligned useDefault => exact Aligned.exec_implements b E useDefault op

end BoostOptional
