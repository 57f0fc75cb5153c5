import BoostOptional.Operation

/-!
The direct-storage implementation for a scalar `T`: `tc_optional_base`
(`detail/optional_trivially_copyable_base.hpp`) and, over it, `optional` (`optional.hpp`). There is a
`T` in the storage all the time. `m_storage` may hold an old value that no flag shows, and after a
constructor that does not mention it, no value at all.
-/

namespace BoostOptional.Direct
open Effect Prog

variable {α ε : Type} (b : Behaviour α ε)

/-! ### m_storage -/

/-- `m_storage = v` for a `T` `v`. The scalar assigned to need not hold a value. -/
def assignStorage (o : ObjId) (v : Arg) : Code α ε Unit := fun w =>
  let c : Call := .assign (.contained o) v
  if (w.value v.loc).isSome then
    let reply := b w.trace c w.value
    settle reply (Memory.log (w.update c.operands reply.after) c)
  else .fault (.notLive c)

/-- `m_storage = value_type(args...)`, or with `.implicit` the conversion in `m_storage = v`. -/
def assignPrvalue (o : ObjId) (how : Init) (args : List Arg) : Code α ε Unit := do
  constructT b how .scratch args
  bracket (assignStorage b o ⟨.scratch, .rvalue, .self⟩) (destroyT .scratch)

/-- `m_storage(args...)` in a constructor, and what a factory does to the storage. -/
def placeStorage (o : ObjId) (how : Init) (args : List Arg) : Code α ε Unit := do
  let reply ← userCall b (.construct how (.contained o) args)
  settle reply
  write fun w => w.setCell o (.live reply.result)

/-- The end of the storage. A scalar has no destructor. -/
def releaseStorage (o : ObjId) : Code α ε Unit := write fun w => (w.setCell o .vacant).setFlag o none

/-! ### tc_optional_base -/

/-- `construct(argument_type)` -/
def construct (o : ObjId) (v : Arg) : Code α ε Unit :=
  bindParam b v fun v => do
    assignStorage b o { v with cat := .constLvalue }
    setInit o true

/-- `construct(in_place_init_t, Args&&...)` -/
def constructInPlace (o : ObjId) (args : List Arg) : Code α ε Unit := do
  assignPrvalue b o .direct args
  setInit o true

/-- `construct(Expr&&, void const*)` -/
def constructExpr (o : ObjId) (v : Arg) : Code α ε Unit := do
  assignPrvalue b o .direct [v]
  setInit o true

/-- `construct(Expr&&, in_place_factory_base const*)` and its typed twin -/
def constructFactory (o : ObjId) (how : Init) (args : List Arg) : Code α ε Unit := do
  placeStorage b o how args
  setInit o true

def destroy (o : ObjId) : Code α ε Unit := setInit o false

/-- `: m_initialized(init), m_storage(args...) {}` -/
def memberCtor (o : ObjId) (init : Bool) (args : List Arg) : Code α ε Unit := do
  born o init
  onThrow (placeStorage b o .direct args) (releaseStorage o)

/-- `: m_initialized(false) { body }`, which leaves `m_storage` as it is. -/
def bodyCtor (o : ObjId) (body : Code α ε Unit) : Code α ε Unit := do
  born o false
  write fun w => w.setCell o .indeterminate
  onThrow body (releaseStorage o)

/-- `tc_optional_base()` and `tc_optional_base(none_t)` -/
def emptyBase (o : ObjId) : Code α ε Unit := memberCtor b o false []

/-- `assign(argument_type)` -/
def assign (this : ObjId) (v : Arg) : Code α ε Unit := construct b this v

/-- The two `assign` templates that take an `optional<U>`. -/
def assignFrom (this rhs : ObjId) (cat : Cat) : Code α ε Unit := do
  if ← isInitialized rhs then assignPrvalue b this .implicit [⟨.contained rhs, cat, .other⟩]
  else pure ()
  let init ← isInitialized rhs
  setInit this init

/-- `assign_expr` for an expression that is no factory. -/
def assignExpr (this : ObjId) (v : Arg) : Code α ε Unit := constructExpr b this v

/-- `assign_expr` for a factory. -/
def assignExprFactory (this : ObjId) (how : Init) (args : List Arg) : Code α ε Unit :=
  constructFactory b this how args

def emplaceAssign (this : ObjId) (args : List Arg) : Code α ε Unit := constructInPlace b this args

/-! ### optional -/

def defaultCtor (o : ObjId) : Code α ε Unit := emptyBase b o

/-- `optional(argument_type)` and `optional(rval_reference_type)`, both to `argument_type`. -/
def valueCtor (o : ObjId) (v : Arg) : Code α ε Unit := memberCtor b o true [{ v with cat := .constLvalue }]

def condCtor (o : ObjId) (cond : Bool) (v : Arg) : Code α ε Unit :=
  memberCtor b o cond [{ v with cat := .constLvalue }]

def inPlaceCtor (o : ObjId) (args : List Arg) : Code α ε Unit := bodyCtor o (constructInPlace b o args)

def inPlaceIfCtor (o : ObjId) (cond : Bool) (args : List Arg) : Code α ε Unit :=
  bodyCtor o (if cond then constructInPlace b o args else pure ())

/-- The copy and move constructors are defaulted: both members are copied. -/
def memberwiseCtor (o rhs : ObjId) (cat : Cat) : Code α ε Unit := do
  let init ← isInitialized rhs
  memberCtor b o init [⟨.contained rhs, cat, .self⟩]

def copyCtor (o rhs : ObjId) : Code α ε Unit := memberwiseCtor b o rhs .constLvalue

def moveCtor (o rhs : ObjId) : Code α ε Unit := memberwiseCtor b o rhs .rvalue

/-- The constructors of `optional` from an `optional<U>`. -/
def convCtor (o rhs : ObjId) (cat : Cat) : Code α ε Unit := do
  emptyBase b o
  onThrow (do if ← isInitialized rhs then construct b o ⟨.contained rhs, cat, .other⟩ else pure ())
    (releaseStorage o)

def convCopyCtor (o rhs : ObjId) : Code α ε Unit := convCtor b o rhs .constLvalue

def convMoveCtor (o rhs : ObjId) : Code α ε Unit := convCtor b o rhs .rvalue

def factoryCtor (o : ObjId) (how : Init) (args : List Arg) : Code α ε Unit :=
  bodyCtor o (constructFactory b o how args)

def exprCtor (o : ObjId) (v : Arg) : Code α ε Unit := bodyCtor o (constructExpr b o v)

def reset (this : ObjId) : Code α ε Unit := destroy this

def emplace (this : ObjId) (args : List Arg) : Code α ε Unit := emplaceAssign b this args

def assignNone (this : ObjId) : Code α ε Unit := destroy this

/-- The copy and move assignments are defaulted: both members are assigned, the flag first. -/
def memberwiseAssign (this rhs : ObjId) (cat : Cat) : Code α ε Unit := do
  let init ← isInitialized rhs
  setInit this init
  assignStorage b this ⟨.contained rhs, cat, .self⟩

def copyAssign (this rhs : ObjId) : Code α ε Unit := memberwiseAssign b this rhs .constLvalue

def moveAssign (this rhs : ObjId) : Code α ε Unit := memberwiseAssign b this rhs .rvalue

def convCopyAssign (this rhs : ObjId) : Code α ε Unit := assignFrom b this rhs .constLvalue

def convMoveAssign (this rhs : ObjId) : Code α ε Unit := assignFrom b this rhs .rvalue

def assignFromT (this : ObjId) (v : Arg) : Code α ε Unit := assign b this v

def assignFromU (this : ObjId) (v : Arg) : Code α ε Unit := assignExpr b this v

def resetValue (this : ObjId) (v : Arg) : Code α ε Unit := assign b this { v with cat := .constLvalue }

def assignFactory (this : ObjId) (how : Init) (args : List Arg) : Code α ε Unit :=
  assignExprFactory b this how args

def legacyOps : LegacyOps α ε where
  assignFromT := assignFromT b
  assignNone := assignNone
  emplace := emplace b

def swap (useDefault : Bool) (x y : ObjId) : Code α ε Unit := legacySwap b (legacyOps b) useDefault x y

def destructor (o : ObjId) : Code α ε Unit := releaseStorage o

def exec (useDefault : Bool) : Op → Code α ε Unit
  | .defaultCtor o | .noneCtor o => defaultCtor b (.named o)
  | .valueCtor o src cat => valueCtor b (.named o) ⟨src, cat, .self⟩
  | .condCtor o cond src cat => condCtor b (.named o) cond ⟨src, cat, .self⟩
  | .inPlaceCtor o args => inPlaceCtor b (.named o) args
  | .inPlaceIfCtor o cond args => inPlaceIfCtor b (.named o) cond args
  | .copyCtor o rhs => copyCtor b (.named o) (.named rhs)
  | .moveCtor o rhs => moveCtor b (.named o) (.named rhs)
  | .convCopyCtor o rhs => convCopyCtor b (.named o) (.named rhs)
  | .convMoveCtor o rhs => convMoveCtor b (.named o) (.named rhs)
  | .factoryCtor o typed args => factoryCtor b (.named o) (factoryInit typed) args
  | .exprCtor o src cat => exprCtor b (.named o) ⟨src, cat, .other⟩
  | .assignNone this => assignNone (.named this)
  | .assignFromT this src cat => assignFromT b (.named this) ⟨src, cat, .self⟩
  | .assignFromU this src cat => assignFromU b (.named this) ⟨src, cat, .other⟩
  | .copyAssign this rhs => copyAssign b (.named this) (.named rhs)
  | .moveAssign this rhs => moveAssign b (.named this) (.named rhs)
  | .convCopyAssign this rhs => convCopyAssign b (.named this) (.named rhs)
  | .convMoveAssign this rhs => convMoveAssign b (.named this) (.named rhs)
  | .assignFactory this typed args => assignFactory b (.named this) (factoryInit typed) args
  | .emplace this args => emplace b (.named this) args
  | .reset this => reset (.named this)
  | .resetValue this src => resetValue b (.named this) ⟨src, .constLvalue, .self⟩
  | .swap x y => swap b useDefault (.named x) (.named y)
  | .destroy o => destructor (.named o)

def system (useDefault : Bool) : System (World α) ε Fault Op where
  exec := exec b useDefault
  legal := Op.Legal

theorem assignStorage_eq_assignment {b : Behaviour α ε} {o : ObjId} {v : Arg} {w : World α}
    (live : (w.value v.loc).isSome = true) :
    assignStorage b o v w = assignment b (.contained o) v w := by
  simp only [assignStorage, live, if_true]
  rfl

end BoostOptional.Direct

namespace BoostOptional

/-- The storages of an optional. `optional.hpp` has direct storage for scalars. -/
inductive Storage where
  | union | aligned | direct
  deriving DecidableEq, Repr

end BoostOptional
