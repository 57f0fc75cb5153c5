import BoostOptional.World

/-!
The aligned-storage implementation: `optional_base` and, over it, `optional` (`optional.hpp`).
An `optional` hands its arguments to `optional_base`, whose `construct` and `assign_value` take a
`T const&` or a `T&&`: an argument of another type is converted to a temporary `T` first. Only the
overloads that take an expression or `in_place_init` construct the `T` from it directly.
-/

namespace BoostOptional

/-- What the swap of `optional.hpp` uses of an `optional`. `swap_selector` is written once for
both bases. -/
structure LegacyOps (α ε : Type) where
  assignFromT : ObjId → Arg → Code α ε Unit
  assignNone : ObjId → Code α ε Unit
  emplace : ObjId → List Arg → Code α ε Unit

section Selector
open Effect Prog

variable {α ε : Type} (b : Behaviour α ε) (ops : LegacyOps α ε)

/-- `get()`, with its `BOOST_ASSERT(is_initialized())` -/
def getLoc (o : ObjId) : Code α ε Loc := do
  if ← isInitialized o then pure (.contained o) else fail .assertion

/-- `swap_selector<true>::optional_swap` -/
def optionalSwapDefault (x y : ObjId) : Code α ε Unit := do
  let hasX ← isInitialized x
  let hasY ← isInitialized y
  if !hasX && !hasY then pure ()
  else do
    if !hasX then ops.emplace x []
    else if !hasY then ops.emplace y []
    else pure ()
    let l ← getLoc x
    let r ← getLoc y
    invokeSwap b l r
    if !hasX then ops.assignNone y
    else if !hasY then ops.assignNone x
    else pure ()

/-- `swap_selector<false>::optional_swap` -/
def optionalSwapMove (x y : ObjId) : Code α ε Unit := do
  if ← isInitialized x then
    if ← isInitialized y then do
      let l ← getLoc x
      let r ← getLoc y
      invokeSwap b l r
    else do
      let l ← getLoc x
      ops.assignFromT y ⟨l, .rvalue, .self⟩
      ops.assignNone x
  else
    if ← isInitialized y then do
      let r ← getLoc y
      ops.assignFromT x ⟨r, .rvalue, .self⟩
      ops.assignNone y
    else pure ()

/-- `swap(x, y)`. `useDefault` is `optional_swap_should_use_default_constructor`. -/
def legacySwap (useDefault : Bool) (x y : ObjId) : Code α ε Unit :=
  if useDefault then optionalSwapDefault b ops x y else optionalSwapMove b ops x y

end Selector

namespace Aligned
open Effect Prog

variable {α ε : Type} (b : Behaviour α ε)

/-! ### optional_base -/

/-- `construct(argument_type)` and `construct(rval_reference_type)` -/
def construct (o : ObjId) (v : Arg) : Code α ε Unit :=
  bindParam b v fun v => do
    constructT b .direct (.contained o) [v]
    setInit o true

/-- `construct(Expr&&, void const*)` -/
def constructExpr (o : ObjId) (v : Arg) : Code α ε Unit := do
  constructT b .direct (.contained o) [v]
  setInit o true

/-- `construct(in_place_init_t, Args&&...)` -/
def constructInPlace (o : ObjId) (args : List Arg) : Code α ε Unit := do
  constructT b .direct (.contained o) args
  setInit o true

/-- `construct(Expr&&, in_place_factory_base const*)` and its typed twin -/
def constructFactory (o : ObjId) (how : Init) (args : List Arg) : Code α ε Unit := do
  constructT b how (.contained o) args
  setInit o true

/-- `assign_value(argument_type)` and `assign_value(rval_reference_type)` -/
def assignValue (o : ObjId) (v : Arg) : Code α ε Unit :=
  bindParam b v fun v => assignT b (.contained o) v

def destroyImpl (o : ObjId) : Code α ε Unit := do
  destroyT (.contained o)
  setInit o false

def destroy (o : ObjId) : Code α ε Unit := do
  if ← isInitialized o then destroyImpl o else pure ()

/-- `: m_initialized(false) { body }`, a constructor of `optional_base`. A throw in the body leaves
no `optional_base`, and its destructor does not run. -/
def baseCtor (o : ObjId) (body : Code α ε Unit) : Code α ε Unit := do
  born o false
  onThrow body (release o)

def baseDestructor (o : ObjId) : Code α ε Unit := do
  destroy o
  release o

/-- The four `assign` overloads that take an optional, over the test of `rhs` and the expression
that names its value. -/
def assignFrom (this : ObjId) (rhsIsInitialized : Code α ε Bool) (v : Arg) : Code α ε Unit := do
  if ← isInitialized this then
    if ← rhsIsInitialized then assignValue b this v else destroy this
  else
    if ← rhsIsInitialized then construct b this v else pure ()

/-- `assign(argument_type)` and `assign(rval_reference_type)` -/
def assign (this : ObjId) (v : Arg) : Code α ε Unit := do
  if ← isInitialized this then assignValue b this v else construct b this v

/-- `assign_expr` for an expression that is no factory. -/
def assignExpr (this : ObjId) (v : Arg) : Code α ε Unit := do
  if ← isInitialized this then assignValue b this v else constructExpr b this v

/-- `assign_expr` for a factory. -/
def assignExprFactory (this : ObjId) (how : Init) (args : List Arg) : Code α ε Unit := do
  if ← isInitialized this then do
    destroy this
    constructFactory b this how args
  else constructFactory b this how args

def emplaceAssign (this : ObjId) (args : List Arg) : Code α ε Unit := do
  destroy this
  constructInPlace b this args

/-! ### optional -/

/-- `optional()` and `optional(none_t)` -/
def defaultCtor (o : ObjId) : Code α ε Unit := born o false

/-- `optional(argument_type)` and `optional(rval_reference_type)`. The constructor from an
expression is no candidate for a `T`. -/
def valueCtor (o : ObjId) (v : Arg) : Code α ε Unit := baseCtor o (construct b o v)

def condCtor (o : ObjId) (cond : Bool) (v : Arg) : Code α ε Unit :=
  baseCtor o (if cond then construct b o v else pure ())

def inPlaceCtor (o : ObjId) (args : List Arg) : Code α ε Unit := baseCtor o (constructInPlace b o args)

def inPlaceIfCtor (o : ObjId) (cond : Bool) (args : List Arg) : Code α ε Unit :=
  baseCtor o (if cond then constructInPlace b o args else pure ())

/-- The copy and move constructors of `optional_base`, over the category of `rhs.get_impl()`. -/
def baseCopyCtor (o rhs : ObjId) (cat : Cat) : Code α ε Unit :=
  baseCtor o do
    if ← isInitialized rhs then construct b o ⟨.contained rhs, cat, .self⟩ else pure ()

def copyCtor (o rhs : ObjId) : Code α ε Unit := baseCopyCtor b o rhs .constLvalue

def moveCtor (o rhs : ObjId) : Code α ε Unit := baseCopyCtor b o rhs .rvalue

/-- The constructors of `optional` from an `optional<U>`: the base is complete when the body
throws, so it is destroyed. -/
def convCtor (o rhs : ObjId) (cat : Cat) : Code α ε Unit := do
  defaultCtor o
  onThrow (do if ← isInitialized rhs then construct b o ⟨.contained rhs, cat, .other⟩ else pure ())
    (baseDestructor o)

def convCopyCtor (o rhs : ObjId) : Code α ε Unit := convCtor b o rhs .constLvalue

def convMoveCtor (o rhs : ObjId) : Code α ε Unit := convCtor b o rhs .rvalue

def factoryCtor (o : ObjId) (how : Init) (args : List Arg) : Code α ε Unit :=
  baseCtor o (constructFactory b o how args)

def exprCtor (o : ObjId) (v : Arg) : Code α ε Unit := baseCtor o (constructExpr b o v)

def reset (this : ObjId) : Code α ε Unit := destroy this

def emplace (this : ObjId) (args : List Arg) : Code α ε Unit := emplaceAssign b this args

def assignNone (this : ObjId) : Code α ε Unit := destroy this

def copyAssign (this rhs : ObjId) : Code α ε Unit :=
  assignFrom b this (isInitialized rhs) ⟨.contained rhs, .constLvalue, .self⟩

def moveAssign (this rhs : ObjId) : Code α ε Unit :=
  assignFrom b this (isInitialized rhs) ⟨.contained rhs, .rvalue, .self⟩

def convCopyAssign (this rhs : ObjId) : Code α ε Unit :=
  assignFrom b this (isInitialized rhs) ⟨.contained rhs, .constLvalue, .other⟩

def convMoveAssign (this rhs : ObjId) : Code α ε Unit :=
  assignFrom b this (isInitialized rhs) ⟨.contained rhs, .rvalue, .other⟩

/-- `o = v` for `v` of type `T`. When `T` is an `optional<U>` the templates taking an `optional<U>`
are selected, but the `assign` they call then prefers its non-template overloads for `T`. -/
def assignFromT (this : ObjId) (v : Arg) : Code α ε Unit := assign b this v

def assignFromU (this : ObjId) (v : Arg) : Code α ε Unit := assignExpr b this v

def resetValue (this : ObjId) (v : Arg) : Code α ε Unit := assign b this { v with cat := .constLvalue }

def assignFactory (this : ObjId) (how : Init) (args : List Arg) : Code α ε Unit :=
  assignExprFactory b this how args

def legacyOps : LegacyOps α ε where
  assignFromT := assignFromT b
  assignNone := assignNone
  emplace := emplace b

def swap (useDefault : Bool) (x y : ObjId) : Code α ε Unit := legacySwap b (legacyOps b) useDefault x y

def destructor (o : ObjId) : Code α ε Unit := baseDestructor o

end Aligned

end BoostOptional
