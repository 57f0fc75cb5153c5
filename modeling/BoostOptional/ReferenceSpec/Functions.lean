import BoostOptional.World
import Mathlib.Logic.Function.Basic

/-!
`optional<T&>` (`detail/optional_reference_spec.hpp`), and the conversion of an `optional<T>` to it
(`detail/union_optional.hpp`). An `optional<T&>` is a `T*`. The objects it may point to are those of
a `World`, whose `T` operations would show in its trace.
-/

namespace BoostOptional.ReferenceSpec
open Effect Prog

/-- A `T*`. `indeterminate` is one that nothing has initialized. -/
inductive Pointer where
  | indeterminate
  | null
  | to (l : Loc)
  deriving DecidableEq, Repr

/-- The types of the referees. `convert u t l` is where a `T*` points that is initialized with the
address of the `U` at `l`. -/
structure Referees where
  type : Nat → Nat
  convert : Nat → Nat → Loc → Loc
  convert_self : ∀ t l, convert t t l = l

/-- `ptr_ o` is `none` when there is no `optional<T&>` `o`. -/
structure State (α : Type) where
  world : World α
  ptr_ : Nat → Option Pointer

inductive Fault where
  | noObject (o : Nat)
  | objectExists (o : Nat)
  | noOptional (o : Nat)
  | indeterminate (o : Nat)
  | staticAssert
  | assertion
  deriving DecidableEq, Repr

/-- An argument bound to `R&&`: the object, the type `R` and whether it is an lvalue reference. -/
structure RefArg where
  loc : Loc
  type : Nat
  isLvalue : Bool
  deriving DecidableEq, Repr

variable {α ε : Type}

abbrev Code (α ε β : Type) : Type := Prog (State α) ε Fault β

/-- `prevent_binding_rvalue<From>()`. `allow` is `BOOST_OPTIONAL_CONFIG_ALLOW_BINDING_TO_RVALUES`. -/
def preventBindingRvalue (allow isLvalue : Bool) : Code α ε Unit :=
  if allow || isLvalue then pure () else fail .staticAssert

/-- The new object `o` with `ptr_(p)`. -/
def create (o : Nat) (p : Pointer) : Code α ε Unit := fun s =>
  match s.ptr_ o with
  | none => .ok () { s with ptr_ := Function.update s.ptr_ o (some p) }
  | some _ => .fault (.objectExists o)

/-- `ptr_ = p` -/
def store (o : Nat) (p : Pointer) : Code α ε Unit := fun s =>
  match s.ptr_ o with
  | none => .fault (.noObject o)
  | some _ => .ok () { s with ptr_ := Function.update s.ptr_ o (some p) }

/-- The value of `ptr_`. There is none in an indeterminate one. -/
def load (o : Nat) : Code α ε Pointer := fun s =>
  match s.ptr_ o with
  | none => .fault (.noObject o)
  | some .indeterminate => .fault (.indeterminate o)
  | some p => .ok p s

/-! ### Observers -/

def getPtr (o : Nat) : Code α ε Pointer := load o

/-- `ptr_ != 0`, which is `has_value()`, `is_initialized()` and `operator bool()`. -/
def hasValue (o : Nat) : Code α ε Bool := do
  let p ← load o
  pure (p != .null)

/-- `get()` and `operator*`: the object that the result refers to. -/
def get (o : Nat) : Code α ε Loc := do
  match ← load o with
  | .to l => pure l
  | _ => fail .assertion

/-! ### Constructors -/

variable (types : Referees) (allow : Bool)

/-- `optional()` and `optional(none_t)` -/
def defaultCtor (o : Nat) : Code α ε Unit := create o .null

/-- The conversion of `U*` to `T*`. -/
def Pointer.as (u t : Nat) : Pointer → Pointer
  | .to l => .to (types.convert u t l)
  | p => p

/-- `optional(const optional& rhs)` -/
def copyCtor (o rhs : Nat) : Code α ε Unit := do
  let p ← getPtr rhs
  create o p

/-- `optional(const optional<U&>& rhs)` -/
def convCtor (o rhs : Nat) : Code α ε Unit := do
  let p ← getPtr rhs
  create o (p.as types (types.type rhs) (types.type o))

/-- `optional(U& rhs)` for a `U` that is `T` up to `const`. -/
def lvalueCtor (o : Nat) (r : Loc) : Code α ε Unit := create o (.to r)

/-- `optional(T&&)`, which has no member initializer. -/
def rvalueCtor (o : Nat) : Code α ε Unit := do
  preventBindingRvalue allow false
  create o .indeterminate

/-- `boost::addressof(r)`, as a `T*` -/
def addressOf (o : Nat) (r : RefArg) : Pointer := .to (types.convert r.type (types.type o) r.loc)

/-- `optional(R&& r)` for any other `R`. -/
def forwardCtor (o : Nat) (r : RefArg) : Code α ε Unit := do
  preventBindingRvalue allow r.isLvalue
  create o (addressOf types o r)

/-- `optional(bool cond, R&& r)` -/
def condCtor (o : Nat) (cond : Bool) (r : RefArg) : Code α ε Unit := do
  preventBindingRvalue allow r.isLvalue
  create o (if cond then addressOf types o r else .null)

/-- `has_value()` of an `optional<T>` -/
def optionalHasValue (from_ : Nat) : Code α ε Bool := fun s =>
  match s.world.flag (.named from_) with
  | some init => .ok init s
  | none => .fault (.noOptional from_)

/-- `optional<T>::operator optional<T&>() &` and `operator optional<const T&>() const&` -/
def fromOptional (o from_ : Nat) : Code α ε Unit := do
  if ← optionalHasValue from_ then lvalueCtor o (.contained (.named from_)) else defaultCtor o

/-! ### Assignment and modifiers -/

def copyAssign (this rhs : Nat) : Code α ε Unit := do
  let p ← getPtr rhs
  store this p

/-- `operator=(const optional<U&>& rhs)` -/
def convAssign (this rhs : Nat) : Code α ε Unit := do
  let p ← getPtr rhs
  store this (p.as types (types.type rhs) (types.type this))

def assignNone (this : Nat) : Code α ε Unit := store this .null

/-- `operator=(R&& r)` -/
def assignRef (this : Nat) (r : RefArg) : Code α ε Unit := do
  preventBindingRvalue allow r.isLvalue
  store this (addressOf types this r)

def emplace (this : Nat) (r : RefArg) : Code α ε Unit := do
  preventBindingRvalue allow r.isLvalue
  store this (addressOf types this r)

def reset (this : Nat) : Code α ε Unit := store this .null

/-- `reset(R&& r)` -/
def resetRef (this : Nat) (r : RefArg) : Code α ε Unit := do
  preventBindingRvalue allow r.isLvalue
  store this (addressOf types this r)

/-- `std::swap(ptr_, rhs.ptr_)` -/
def swap (this rhs : Nat) : Code α ε Unit := do
  let tmp ← load this
  let p ← load rhs
  store this p
  store rhs tmp

def destroy (o : Nat) : Code α ε Unit := fun s =>
  match s.ptr_ o with
  | none => .fault (.noObject o)
  | some _ => .ok () { s with ptr_ := Function.update s.ptr_ o none }

/-! ### Operations -/

inductive Op where
  | defaultCtor (o : Nat)
  | noneCtor (o : Nat)
  | copyCtor (o rhs : Nat)
  | convCtor (o rhs : Nat)
  | lvalueCtor (o : Nat) (r : Loc)
  | rvalueCtor (o : Nat) (r : Loc)
  | forwardCtor (o : Nat) (r : RefArg)
  | condCtor (o : Nat) (cond : Bool) (r : RefArg)
  | fromOptional (o from_ : Nat)
  | copyAssign (this rhs : Nat)
  | convAssign (this rhs : Nat)
  | assignNone (this : Nat)
  | assignRef (this : Nat) (r : RefArg)
  | emplace (this : Nat) (r : RefArg)
  | reset (this : Nat)
  | resetRef (this : Nat) (r : RefArg)
  | swap (x y : Nat)
  | destroy (o : Nat)
  deriving DecidableEq, Repr

namespace Op

/-- The object a constructor creates. -/
def creates : Op → List Nat
  | defaultCtor o | noneCtor o | copyCtor o _ | convCtor o _ | lvalueCtor o _ | rvalueCtor o _ | forwardCtor o _
  | condCtor o _ _ | fromOptional o _ => [o]
  | _ => []

/-- The optional references that an operation works on. -/
def objects : Op → List Nat
  | copyCtor _ rhs | convCtor _ rhs => [rhs]
  | copyAssign this rhs | convAssign this rhs => [this, rhs]
  | assignNone this | assignRef this _ | emplace this _ | reset this | resetRef this _ => [this]
  | swap x y => [x, y]
  | destroy o => [o]
  | _ => []

/-- The `optional<T>` that is converted. -/
def converts : Op → List Nat
  | fromOptional _ from_ => [from_]
  | _ => []

/-- Whether the program compiles. An rvalue is bound in one of the settings only. -/
def wellFormed (allow : Bool) : Op → Bool
  | rvalueCtor _ _ => allow
  | forwardCtor _ r | condCtor _ _ r | assignRef _ r | emplace _ r | resetRef _ r => allow || r.isLvalue
  | _ => true

/-- The constructor from a `T` rvalue aside. -/
def initializes : Op → Bool
  | rvalueCtor _ _ => false
  | _ => true

end Op

structure Op.Legal (op : Op) (s : State α) : Prop where
  wellFormed : op.wellFormed allow = true
  creates : ∀ o ∈ op.creates, s.ptr_ o = none
  objects : ∀ o ∈ op.objects, s.ptr_ o ≠ none
  converts : ∀ o ∈ op.converts, s.world.flag (.named o) ≠ none

def exec : Op → Code α ε Unit
  | .defaultCtor o | .noneCtor o => defaultCtor o
  | .copyCtor o rhs => copyCtor o rhs
  | .convCtor o rhs => convCtor types o rhs
  | .lvalueCtor o r => lvalueCtor o r
  | .rvalueCtor o _ => rvalueCtor allow o
  | .forwardCtor o r => forwardCtor types allow o r
  | .condCtor o cond r => condCtor types allow o cond r
  | .fromOptional o from_ => fromOptional o from_
  | .copyAssign this rhs => copyAssign this rhs
  | .convAssign this rhs => convAssign types this rhs
  | .assignNone this => assignNone this
  | .assignRef this r => assignRef types allow this r
  | .emplace this r => emplace types allow this r
  | .reset this => reset this
  | .resetRef this r => resetRef types allow this r
  | .swap x y => swap x y
  | .destroy o => destroy o

/-- Nothing here throws. -/
def system : System (State α) Empty Fault Op where
  exec := exec types allow
  legal := Op.Legal allow

end BoostOptional.ReferenceSpec
