import BoostOptional.World

/-!
The union implementation (`detail/union_optional.hpp`). `guarded_storage` is a union and a flag:
`constexpr_guarded_storage` when `T` is trivially destructible, `fallback_guarded_storage`
otherwise. `constexprCopy` is `BOOST_OPTIONAL_CONSTEXPR_COPY`, which selects how the conditional,
copy, move and `in_place_init_if` constructors build the storage.
-/

namespace BoostOptional.Union
open Effect Prog

variable {α ε : Type} (E : Element α) (b : Behaviour α ε)

/-! ### guarded_storage -/

/-- `guarded_storage() : init_(false), storage_(trivial_init)` -/
def emptyStorage (o : ObjId) : Code α ε Unit := born o false

/-- `guarded_storage(in_place_init_t, Args&&... args) : init_(true), storage_(args...)`. A throw
from `storage_` leaves no `guarded_storage`, and its destructor does not run. -/
def inPlaceStorage (o : ObjId) (args : List Arg) : Code α ε Unit := do
  born o true
  onThrow (constructT b .direct (.contained o) args) (release o)

/-- `guarded_storage(const T&)` and `guarded_storage(T&&)` -/
def valueStorage (o : ObjId) (v : Arg) : Code α ε Unit := inPlaceStorage b o [{ v with cat := v.cat.bound }]

def storageReset (o : ObjId) : Code α ε Unit :=
  if E.isTriviallyDestructible then do
    write fun w => w.giveUp o
    setInit o false
  else do
    if ← isInitialized o then do
      destroyT (.contained o)
      setInit o false
    else pure ()

/-- `~guarded_storage()`, and the end of the storage. -/
def storageDestructor (o : ObjId) : Code α ε Unit :=
  if E.isTriviallyDestructible then do
    write fun w => w.giveUp o
    release o
  else do
    if ← isInitialized o then destroyT (.contained o) else pure ()
    release o

/-! ### optional -/

/-- `BOOST_ASSERT(!storage.init_)` -/
def assertEmpty (o : ObjId) : Code α ε Unit := do
  if ← isInitialized o then fail .assertion else pure ()

/-- `initialize(args...)` -/
def initializeT (o : ObjId) (args : List Arg) : Code α ε Unit := do
  assertEmpty o
  constructT b .direct (.contained o) args
  setInit o true

def conditionalStorageFromValues (o : ObjId) (cond : Bool) (args : List Arg) : Code α ε Unit :=
  if cond then inPlaceStorage b o args else emptyStorage o

def conditionalStorageFromOptional (o ou : ObjId) (cat : Cat) (ty : ArgTy) : Code α ε Unit := do
  if ← isInitialized ou then inPlaceStorage b o [⟨.contained ou, cat, ty⟩] else emptyStorage o

/-- `: storage() { body }`. The storage is complete, so a throw in the body destroys it. -/
def withStorage (o : ObjId) (body : Code α ε Unit) : Code α ε Unit := do
  emptyStorage o
  onThrow body (storageDestructor E o)

/-- `optional()` and `optional(none_t)` -/
def defaultCtor (o : ObjId) : Code α ε Unit := emptyStorage o

/-- Direct initialization from a `T`: `optional(const T&)`, `optional(T&&)`, and `optional(U&&)`
with `U` deduced as `T&` for a non-const lvalue. -/
def valueCtor (o : ObjId) (v : Arg) : Code α ε Unit :=
  match v.cat with
  | .lvalue => inPlaceStorage b o [v]
  | _ => valueStorage b o v

/-- `optional(bool, const T&)` and `optional(bool, T&&)` -/
def condCtor (constexprCopy : Bool) (o : ObjId) (cond : Bool) (v : Arg) : Code α ε Unit :=
  let v := { v with cat := v.cat.bound }
  if constexprCopy then conditionalStorageFromValues b o cond [v]
  else withStorage E o (if cond then initializeT b o [v] else pure ())

def inPlaceCtor (o : ObjId) (args : List Arg) : Code α ε Unit := inPlaceStorage b o args

def inPlaceIfCtor (constexprCopy : Bool) (o : ObjId) (cond : Bool) (args : List Arg) : Code α ε Unit :=
  if constexprCopy then conditionalStorageFromValues b o cond args
  else withStorage E o (if cond then initializeT b o args else pure ())

/-- The four constructors from an optional: `*rhs` or `*move_(rhs)`, of type `T` or `U`. -/
def optionalCtor (constexprCopy : Bool) (o rhs : ObjId) (cat : Cat) (ty : ArgTy) : Code α ε Unit :=
  if constexprCopy then conditionalStorageFromOptional b o rhs cat ty
  else withStorage E o do
    if ← isInitialized rhs then initializeT b o [⟨.contained rhs, cat, ty⟩] else pure ()

def copyCtor (constexprCopy : Bool) (o rhs : ObjId) : Code α ε Unit :=
  optionalCtor E b constexprCopy o rhs .constLvalue .self

def moveCtor (constexprCopy : Bool) (o rhs : ObjId) : Code α ε Unit :=
  optionalCtor E b constexprCopy o rhs .rvalue .self

def convCopyCtor (constexprCopy : Bool) (o rhs : ObjId) : Code α ε Unit :=
  optionalCtor E b constexprCopy o rhs .constLvalue .other

def convMoveCtor (constexprCopy : Bool) (o rhs : ObjId) : Code α ε Unit :=
  optionalCtor E b constexprCopy o rhs .rvalue .other

/-- The constructors from a typed and from an untyped factory. -/
def factoryCtor (o : ObjId) (how : Init) (args : List Arg) : Code α ε Unit :=
  withStorage E o do
    constructT b how (.contained o) args
    setInit o true

/-- `explicit optional(U&&)` -/
def exprCtor (o : ObjId) (v : Arg) : Code α ε Unit := inPlaceStorage b o [v]

def reset (this : ObjId) : Code α ε Unit := storageReset E this

def emplace (this : ObjId) (args : List Arg) : Code α ε Unit := do
  reset E this
  initializeT b this args

def assignNone (this : ObjId) : Code α ε Unit := reset E this

/-- The body of the four assignments from an optional, over the test `rhs.has_value()` and the
expression that names `rhs`'s value. -/
def assignFrom (this : ObjId) (rhsHasValue : Code α ε Bool) (v : Arg) : Code α ε Unit := do
  if ← isInitialized this then
    if ← rhsHasValue then assignT b (.contained this) v else reset E this
  else
    if ← rhsHasValue then initializeT b this [v] else pure ()

def copyAssign (this rhs : ObjId) : Code α ε Unit :=
  assignFrom E b this (isInitialized rhs) ⟨.contained rhs, .constLvalue, .self⟩

def moveAssign (this rhs : ObjId) : Code α ε Unit :=
  assignFrom E b this (isInitialized rhs) ⟨.contained rhs, .rvalue, .self⟩

def convCopyAssign (this rhs : ObjId) : Code α ε Unit :=
  assignFrom E b this (isInitialized rhs) ⟨.contained rhs, .constLvalue, .other⟩

def convMoveAssign (this rhs : ObjId) : Code α ε Unit :=
  assignFrom E b this (isInitialized rhs) ⟨.contained rhs, .rvalue, .other⟩

/-- `operator=(U&&)` -/
def assignForward (this : ObjId) (v : Arg) : Code α ε Unit := do
  if ← isInitialized this then assignT b (.contained this) v else initializeT b this [v]

/-- `o = v` for `v` of type `T`, by the overload that resolution selects. For a scalar `T` no
`operator=(U&&)` is viable and `v` becomes a temporary optional that is moved from. When `T` is an
`optional<U>`, the templates taking `optional<U> const&` and `optional<U>&&` are more specialized
than `U&&`, so only a non-const lvalue reaches `operator=(U&&)`. -/
def assignFromT (this : ObjId) (v : Arg) : Code α ε Unit :=
  if E.isScalar then do
    valueStorage b .temporary v
    bracket (moveAssign E b this .temporary) (storageDestructor E .temporary)
  else
    match E.hasValue, v.cat with
    | some _, .lvalue | none, _ => assignForward b this v
    | some hasValue, cat => assignFrom E b this (innerHasValue hasValue v.loc) ⟨v.loc, cat, .inner⟩

/-- `reset(const T&)` is `*this = v`. -/
def resetValue (this : ObjId) (v : Arg) : Code α ε Unit :=
  assignFromT E b this { v with cat := .constLvalue }

def assignFactory (this : ObjId) (how : Init) (args : List Arg) : Code α ε Unit := do
  reset E this
  constructT b how (.contained this) args
  setInit this true

def swap (this rhs : ObjId) : Code α ε Unit := do
  if ← isInitialized this then
    if ← isInitialized rhs then invokeSwap b (.contained this) (.contained rhs)
    else do
      initializeT b rhs [⟨.contained this, .rvalue, .self⟩]
      reset E this
  else
    if ← isInitialized rhs then do
      initializeT b this [⟨.contained rhs, .rvalue, .self⟩]
      reset E rhs
    else pure ()

def destructor (o : ObjId) : Code α ε Unit := storageDestructor E o

end BoostOptional.Union
