import BoostOptional.Refinement.Core

/-!
The union implementation refines the documented optional, for both storages and both ways of
building the storage.
-/

namespace BoostOptional.Union
open Effect Prog Memory

variable {α ε : Type} (E : Element α) (b : Behaviour α ε)

/-! ### guarded_storage -/

theorem reset_implements (o : ObjId) : Implements (reset E o : Code α ε Unit) (Spec.clear o) := by
  intro w s rep
  unfold reset storageReset Spec.clear
  cases content : s.content o with
  | none => exact match_fault _ _
  | some c =>
    have flag := rep.flag_of_content content
    have held := rep.cell_of_content content
    cases c with
    | none =>
      split
      · simp only [bind_apply, andThen, write_apply, setInit, World.giveUp_empty held]
        rw [show w.setFlag o (some false) = w from World.setFlag_self flag]
        exact ⟨rfl, rep⟩
      · simp only [bind_apply, andThen, isInitialized, flag]
        exact ⟨rfl, rep⟩
    | some v =>
      have here : (value s (.contained o)).isSome = true := by simp [value, Spec.State.value, content]
      have here' : (value w (.contained o)).isSome = true := by rw [rep.value_eq]; exact here
      have live : w.cell o = .live v := by cases cell : w.cell o <;> simp_all [Cell.value?]
      simp only [destroyT_live here]
      split
      · simp only [bind_apply, andThen, write_apply, setInit, World.giveUp, live]
        exact ⟨rfl, (rep.setContent o (.stale v) none rfl).log _⟩
      · simp only [bind_apply, andThen, isInitialized, flag, Option.isSome_some, if_true,
          destroyT_live here']
        exact ⟨rfl, (rep.setContent o .vacant none rfl).log _⟩

theorem storageDestructor_eq (o : ObjId) :
    (storageDestructor E o : Code α ε Unit) = (do reset E o; release o) := by
  funext w
  unfold storageDestructor reset storageReset
  split
  · simp [andThen, setInit, release, World.setFlag_setFlag]
  · simp only [bind_apply, andThen, isInitialized]
    cases w.flag o with
    | none => rfl
    | some init =>
      cases init
      · rfl
      · simp only [if_true, destroyT, bind_apply, andThen]
        by_cases live : (value w (.contained o)).isSome = true
        · simp [live, setInit, release, World.setFlag_setFlag]
        · simp [live]

theorem storageDestructor_implements (o : ObjId) :
    Implements (storageDestructor E o : Code α ε Unit) (Spec.destroy o) := by
  rw [storageDestructor_eq]
  exact refines_bind (reset_implements E o) fun _ => release_implements o

theorem storageDestructor_vanish (o : ObjId) :
    Implements (storageDestructor E o : Code α ε Unit) (Spec.vanish o) := by
  intro w s rep
  have destroyed := storageDestructor_implements E (ε := ε) o w s rep
  cases content : s.content o with
  | none => simp only [Spec.vanish, content]; exact match_fault _ _
  | some c =>
    cases c with
    | none => simpa only [Spec.destroy, bind_apply, andThen, Spec.clear, content] using destroyed
    | some v => simp only [Spec.vanish, content]; exact match_fault _ _

theorem initialize_implements (o : ObjId) (args : List Arg) :
    Implements (initializeT b o args) (Spec.create b .direct o args) := by
  intro w s rep
  cases content : s.content o with
  | none => simp only [Spec.create, content]; exact match_fault _ _
  | some c =>
    cases c with
    | some v => simp only [Spec.create, content]; exact match_fault _ _
    | none =>
      have step := construct_implements b .direct o args w s rep
      have flag : w.flag o = some false := rep.flag_of_content content
      simpa only [initializeT, assertEmpty, bind_apply, andThen, isInitialized, flag,
        Bool.false_eq_true,
        if_false, pure_apply] using step

theorem inPlaceStorage_eq (o : ObjId) (args : List Arg) :
    inPlaceStorage b o args = (do
      born o false
      onThrow (do constructT b .direct (.contained o) args; setInit o true) (release o)) := by
  -- The flag is set before the `T` is constructed here, and no `T` operation sees the difference.
  funext w
  simp only [inPlaceStorage, bind_apply, andThen, born]
  cases w.flag o with
  | some init => rfl
  | none =>
    simp only [onThrow, constructT_setFlag, bind_apply, andThen]
    cases constructT b .direct (.contained o) args w <;>
      simp [Outcome.mapState, setInit, release, World.setFlag_setFlag]

theorem inPlaceStorage_implements (o : ObjId) (args : List Arg) :
    Implements (inPlaceStorage b o args) (Spec.newOptional o (Spec.create b .direct o args)) := by
  rw [inPlaceStorage_eq]
  exact refines_bind (born_implements o) fun _ =>
    refines_onThrow (construct_implements b .direct o args) (release_implements o)

theorem withStorage_implements (o : ObjId) {body : Code α ε Unit} {body' : Spec.Doc α ε Unit}
    (same : Implements body body') : Implements (withStorage E o body) (Spec.newOptional o body') :=
  refines_bind (born_implements o) fun _ => refines_onThrow same (storageDestructor_vanish E o)

/-! ### Constructors -/

theorem emptyStorage_implements (o : ObjId) :
    Implements (emptyStorage o : Code α ε Unit) (Spec.newOptional o (pure ())) := by
  intro w s rep
  have step := born_implements (ε := ε) o w s rep
  simp only [emptyStorage, Spec.newOptional, bind_apply, andThen] at step ⊢
  cases h : (Spec.appear o : Spec.Doc α ε Unit) s <;> simpa only [h, onThrow, pure_apply] using step

theorem conditionalStorage_implements (o : ObjId) (cond : Bool) (args : List Arg) :
    Implements (conditionalStorageFromValues b o cond args)
      (Spec.newOptional o (if cond then Spec.create b .direct o args else pure ())) := by
  unfold conditionalStorageFromValues
  cases cond with
  | false => exact emptyStorage_implements o
  | true => exact inPlaceStorage_implements b o args

theorem initializeIf_implements (o : ObjId) (cond : Bool) (args : List Arg) :
    Implements (withStorage E o (if cond then initializeT b o args else pure ()))
      (Spec.newOptional o (if cond then Spec.create b .direct o args else pure ())) :=
  withStorage_implements E o (refines_ite (initialize_implements b o args) (refines_pure ()))

theorem condCtor_implements (constexprCopy : Bool) (o : ObjId) (cond : Bool) (src : Loc) (cat : Cat) :
    Implements (condCtor E b constexprCopy o cond ⟨src, cat, .self⟩) (Spec.newOptional o
      (if cond then Spec.createFrom b .bound o ⟨src, cat, .self⟩ else pure ())) := by
  unfold condCtor
  cases constexprCopy with
  | false => exact initializeIf_implements E b o cond _
  | true => exact conditionalStorage_implements b o cond _

theorem inPlaceIfCtor_implements (constexprCopy : Bool) (o : ObjId) (cond : Bool) (args : List Arg) :
    Implements (inPlaceIfCtor E b constexprCopy o cond args) (Spec.newOptional o
      (if cond then Spec.create b .direct o args else pure ())) := by
  unfold inPlaceIfCtor
  cases constexprCopy with
  | false => exact initializeIf_implements E b o cond args
  | true => exact conditionalStorage_implements b o cond args

theorem valueCtor_implements (o : ObjId) (src : Loc) (cat : Cat) :
    Implements (valueCtor b o ⟨src, cat, .self⟩)
      (Spec.newOptional o (Spec.createFrom b .forwarded o ⟨src, cat, .self⟩)) := by
  cases cat <;> exact inPlaceStorage_implements b o _

theorem optionalCtor_implements (constexprCopy : Bool) {o rhs : ObjId} (different : rhs ≠ o) (cat : Cat)
    (ty : ArgTy) :
    Implements (optionalCtor E b constexprCopy o rhs cat ty)
      (Spec.newFrom b .forwarded o (Spec.engaged rhs) ⟨.contained rhs, cat, ty⟩) := by
  -- The test of `rhs` comes before the new object exists in one build, after it in the other.
  unfold optionalCtor
  cases constexprCopy with
  | false =>
    exact withStorage_implements E o (refines_bind (isInitialized_implements rhs) fun _ =>
      refines_ite (initialize_implements b o _) (refines_pure ()))
  | true =>
    intro w s rep
    cases content : s.content rhs with
    | none =>
      obtain ⟨f, faults⟩ := Spec.newFrom_fault b .forwarded ⟨.contained rhs, cat, ty⟩ different content
      rw [faults]
      exact match_fault _ _
    | some c =>
      rw [Spec.newFrom_eq b .forwarded ⟨.contained rhs, cat, ty⟩ different content]
      have flag := rep.flag_of_content content
      have step := conditionalStorage_implements b o c.isSome [⟨.contained rhs, cat, ty⟩] w s rep
      simp only [if_true, conditionalStorageFromOptional, bind_apply, andThen, isInitialized, flag]
      exact step

theorem factoryCtor_implements (o : ObjId) (how : Init) (args : List Arg) :
    Implements (factoryCtor E b o how args) (Spec.newOptional o (Spec.create b how o args)) :=
  withStorage_implements E o (construct_implements b how o args)

/-! ### Assignment -/

theorem assignFrom_implements (this : ObjId) {rhsHasValue : Code α ε Bool}
    {rhsHasValue' : Spec.Doc α ε Bool}
    (same : Implements rhsHasValue rhsHasValue') (v : Arg) :
    Implements (assignFrom E b this rhsHasValue v) (Spec.assignFrom b .forwarded this rhsHasValue' v) :=
  refines_bind (isInitialized_implements this) fun _ => refines_ite
    (refines_bind same fun _ => refines_ite (assignT_implements b _ _) (reset_implements E this))
    (refines_bind same fun _ => refines_ite (initialize_implements b this _) (refines_pure ()))

theorem assignForward_implements (this : ObjId) (v : Arg) :
    Implements (assignForward b this v) (Spec.assignValue b .forwarded .forwarded this v) :=
  refines_bind (isInitialized_implements this) fun _ =>
    refines_ite (assignT_implements b _ _) (initialize_implements b this _)

theorem assignFromT_implements (this : ObjId) (v : Arg) :
    Implements (assignFromT E b this v) (Spec.unionAssignFromT b E this v) := by
  unfold assignFromT Spec.unionAssignFromT
  split
  · exact refines_bind (inPlaceStorage_implements b _ _) fun _ => refines_bracket
      (assignFrom_implements E b this (isInitialized_implements _) _) (storageDestructor_implements E _)
  · obtain ⟨src, cat, ty⟩ := v
    cases E.hasValue with
    | none => exact assignForward_implements b this _
    | some hasValue =>
      cases cat with
      | lvalue => exact assignForward_implements b this _
      | constLvalue | rvalue => exact assignFrom_implements E b this (innerHasValue_implements _ _) _

theorem assignFactory_implements (this : ObjId) (how : Init) (args : List Arg) :
    Implements (assignFactory E b this how args) (Spec.emplace b how this args) :=
  refines_bind (reset_implements E this) fun _ => construct_implements b how this args

theorem emplace_implements (this : ObjId) (args : List Arg) :
    Implements (emplace E b this args) (Spec.emplace b .direct this args) :=
  refines_bind (reset_implements E this) fun _ => initialize_implements b this args

theorem swap_implements (x y : ObjId) : Implements (swap E b x y) (Spec.swap b x y) :=
  refines_bind (isInitialized_implements x) fun _ => refines_ite
    (refines_bind (isInitialized_implements y) fun _ => refines_ite (invokeSwap_implements b _ _)
      (refines_bind (initialize_implements b y _) fun _ => reset_implements E x))
    (refines_bind (isInitialized_implements y) fun _ => refines_ite
      (refines_bind (initialize_implements b x _) fun _ => reset_implements E y) (refines_pure ()))

/-- Every operation of the union implementation does what the document says. A constructor from
an optional is not asked to build an object from itself. -/
theorem exec_implements (constexprCopy : Bool) (op : Op) (fresh : ∀ o ∈ op.creates, o ∉ op.objects) :
    Implements (exec E b constexprCopy op)
      (Spec.exec b (Spec.style b E (.union constexprCopy)) op) := by
  cases op with
  | defaultCtor o => exact born_implements _
  | noneCtor o => exact born_implements _
  | valueCtor o src cat => exact valueCtor_implements b _ _ _
  | condCtor o cond src cat => exact condCtor_implements E b _ _ _ _ _
  | inPlaceCtor o args => exact inPlaceStorage_implements b _ _
  | inPlaceIfCtor o cond args => exact inPlaceIfCtor_implements E b _ _ _ _
  | copyCtor o rhs | moveCtor o rhs | convCopyCtor o rhs | convMoveCtor o rhs =>
    have different : ObjId.named rhs ≠ .named o := by
      simpa [Op.creates, Op.objects, eq_comm] using fresh
    exact optionalCtor_implements E b _ different _ _
  | factoryCtor o typed args => exact factoryCtor_implements E b _ _ _
  | exprCtor o src cat => exact inPlaceStorage_implements b _ _
  | assignNone this => exact reset_implements E _
  | assignFromT this src cat => exact assignFromT_implements E b _ _
  | assignFromU this src cat => exact assignForward_implements b _ _
  | copyAssign this rhs | moveAssign this rhs | convCopyAssign this rhs | convMoveAssign this rhs =>
    exact assignFrom_implements E b _ (isInitialized_implements _) _
  | assignFactory this typed args => exact assignFactory_implements E b _ _ _
  | emplace this args => exact emplace_implements E b _ _
  | reset this => exact reset_implements E _
  | resetValue this src => exact assignFromT_implements E b _ _
  | swap x y => exact swap_implements E b _ _
  | destroy o => exact storageDestructor_implements E _

end BoostOptional.Union
