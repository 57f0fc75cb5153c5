import BoostOptional.Direct

/-!
An `optional<U&>` as the source of an `optional<T>`: the converting constructors and assignments of
the three storages, which are templates over `optional<U>`, at an `optional<U&>`
(`detail/optional_reference_spec.hpp`). What they do to the referee is decided by the expression
that names it: `*rhs`, `rhs.get()` under a cast, or `rhs.get()` moved.
-/

namespace BoostOptional.Reference
open Effect Prog

variable {α ε β : Type}

/-- `optional<U&>`. `ptr_` is the object referred to. -/
structure OptionalRef where
  ptr_ : Option Loc
  deriving DecidableEq, Repr

structure State (α : Type) where
  world : World α
  rhs : OptionalRef

def onWorld (c : Code α ε β) : Prog (State α) ε Fault β := fun s =>
  match c s.world with
  | .ok value w => .ok value { s with world := w }
  | .thrown e w => .thrown e { s with world := w }
  | .fault f => .fault f

/-- `rhs.is_initialized()` and `rhs.has_value()` -/
def isInitialized : Prog (State α) ε Fault Bool := read fun s => s.rhs.ptr_.isSome

/-- `rhs.get()`, which gives a `U&` whatever the category of `rhs`. -/
def get : Prog (State α) ε Fault Loc := fun s =>
  match s.rhs.ptr_ with
  | some l => .ok l s
  | none => .fault .assertion

/-- The type `U`. `ty` is `.self` when a `T const&` binds to a `U` itself: when `U` is `T` up to
`const`, or a class derived from `T`, whose value is then that of the `T` in it. -/
structure Referee where
  isConst : Bool
  ty : ArgTy
  deriving DecidableEq, Repr

/-- `*rhs`, `*move_(rhs)`, `rhs.get()`, and the cast of the latter to `rval_reference_type`, which is
`U&` here. -/
def Referee.lvalue (U : Referee) (l : Loc) : Arg :=
  ⟨l, if U.isConst then .constLvalue else .lvalue, U.ty⟩

/-- `move_(rhs.get())`. A `T const&&` binds to a `T const&` only, but a `U const&&` of another type is
converted as the rvalue it is. -/
def Referee.moved (U : Referee) (l : Loc) : Arg :=
  ⟨l, if U.isConst = true ∧ U.ty = .self then .constLvalue else .rvalue, U.ty⟩

/-- `if (rhs.is_initialized()) yes(rhs.get()) else no` -/
def whenBound (value : Loc → Arg) (yes : Arg → Code α ε Unit) (no : Code α ε Unit) :
    Prog (State α) ε Fault Unit := do
  if ← isInitialized then do
    let l ← get
    onWorld (yes (value l))
  else onWorld no

variable (E : Element α) (b : Behaviour α ε)

/-! ### union_optional.hpp -/

def Union.optionalCtor (constexprCopy : Bool) (o : ObjId) (value : Loc → Arg) :
    Prog (State α) ε Fault Unit :=
  if constexprCopy then
    whenBound value (fun v => Union.inPlaceStorage b o [v]) (Union.emptyStorage o)
  else do
    onWorld (Union.emptyStorage o)
    onThrow (whenBound value (fun v => Union.initializeT b o [v]) (pure ()))
      (onWorld (Union.storageDestructor E o))

def Union.convCopyCtor (constexprCopy : Bool) (o : ObjId) (U : Referee) : Prog (State α) ε Fault Unit :=
  Union.optionalCtor E b constexprCopy o U.lvalue

def Union.convMoveCtor (constexprCopy : Bool) (o : ObjId) (U : Referee) : Prog (State α) ε Fault Unit :=
  Union.optionalCtor E b constexprCopy o U.lvalue

def Union.assignFrom (this : ObjId) (value : Loc → Arg) : Prog (State α) ε Fault Unit := do
  if ← onWorld (BoostOptional.isInitialized this) then
    whenBound value (assignT b (.contained this)) (Union.reset E this)
  else whenBound value (fun v => Union.initializeT b this [v]) (pure ())

def Union.convCopyAssign (this : ObjId) (U : Referee) : Prog (State α) ε Fault Unit :=
  Union.assignFrom E b this U.lvalue

def Union.convMoveAssign (this : ObjId) (U : Referee) : Prog (State α) ε Fault Unit :=
  Union.assignFrom E b this U.lvalue

/-! ### optional.hpp over optional_base -/

def Aligned.convCtor (o : ObjId) (value : Loc → Arg) : Prog (State α) ε Fault Unit := do
  onWorld (Aligned.defaultCtor o)
  onThrow (whenBound value (Aligned.construct b o) (pure ())) (onWorld (Aligned.baseDestructor o))

def Aligned.convCopyCtor (o : ObjId) (U : Referee) : Prog (State α) ε Fault Unit :=
  Aligned.convCtor b o U.lvalue

def Aligned.convMoveCtor (o : ObjId) (U : Referee) : Prog (State α) ε Fault Unit :=
  Aligned.convCtor b o U.moved

def Aligned.assignFrom (this : ObjId) (value : Loc → Arg) : Prog (State α) ε Fault Unit := do
  if ← onWorld (BoostOptional.isInitialized this) then
    whenBound value (Aligned.assignValue b this) (Aligned.destroy this)
  else whenBound value (Aligned.construct b this) (pure ())

def Aligned.convCopyAssign (this : ObjId) (U : Referee) : Prog (State α) ε Fault Unit :=
  Aligned.assignFrom b this U.lvalue

def Aligned.convMoveAssign (this : ObjId) (U : Referee) : Prog (State α) ε Fault Unit :=
  Aligned.assignFrom b this U.lvalue

/-! ### optional.hpp over tc_optional_base -/

def Direct.convCtor (o : ObjId) (value : Loc → Arg) : Prog (State α) ε Fault Unit := do
  onWorld (Direct.emptyBase b o)
  onThrow (whenBound value (Direct.construct b o) (pure ())) (onWorld (Direct.releaseStorage o))

def Direct.convCopyCtor (o : ObjId) (U : Referee) : Prog (State α) ε Fault Unit :=
  Direct.convCtor b o U.lvalue

def Direct.convMoveCtor (o : ObjId) (U : Referee) : Prog (State α) ε Fault Unit :=
  Direct.convCtor b o U.moved

/-- `m_storage = v`. A scalar is assigned what `v` converts to, a class has an operator for it. -/
def Direct.assignValue (this : ObjId) (v : Arg) : Code α ε Unit :=
  if v.ty ≠ .self ∧ E.isScalar = true then Direct.assignPrvalue b this .implicit [v]
  else Direct.assignStorage b this v

def Direct.assignFrom (this : ObjId) (value : Loc → Arg) : Prog (State α) ε Fault Unit := do
  whenBound value (Direct.assignValue E b this) (pure ())
  let init ← isInitialized
  onWorld (setInit this init)

def Direct.convCopyAssign (this : ObjId) (U : Referee) : Prog (State α) ε Fault Unit :=
  Direct.assignFrom E b this U.lvalue

def Direct.convMoveAssign (this : ObjId) (U : Referee) : Prog (State α) ε Fault Unit :=
  Direct.assignFrom E b this U.lvalue

/-! ### The overload for the category of the source -/

/-- `optional<T> o(r);` The parameter of the copying constructor is an `optional<U> const&`. -/
def construct (storage : Storage) (constexprCopy : Bool) (o : ObjId) (U : Referee) (cat : Cat) :
    Prog (State α) ε Fault Unit :=
  match storage, cat with
  | .union, .rvalue => Union.convMoveCtor E b constexprCopy o U
  | .union, _ => Union.convCopyCtor E b constexprCopy o U
  | .aligned, .rvalue => Aligned.convMoveCtor b o U
  | .aligned, _ => Aligned.convCopyCtor b o U
  | .direct, .rvalue => Direct.convMoveCtor b o U
  | .direct, _ => Direct.convCopyCtor b o U

/-- `o = r;` -/
def assign (storage : Storage) (this : ObjId) (U : Referee) (cat : Cat) : Prog (State α) ε Fault Unit :=
  match storage, cat with
  | .union, .rvalue => Union.convMoveAssign E b this U
  | .union, _ => Union.convCopyAssign E b this U
  | .aligned, .rvalue => Aligned.convMoveAssign b this U
  | .aligned, _ => Aligned.convCopyAssign b this U
  | .direct, .rvalue => Direct.convMoveAssign E b this U
  | .direct, _ => Direct.convCopyAssign E b this U

end BoostOptional.Reference
