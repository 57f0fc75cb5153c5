import BoostOptional.Element
import BoostOptional.Overload.Resolution
import Mathlib.Data.List.ReduceOption

/-!
Element types with optionals nested to any depth. A type is known by its operations: from which
arguments it can be constructed, converted and assigned, and what comes out. The operations of
`optional<T>` are those of the union implementation, as overload resolution selects them, over the
operations of `T`.
-/

namespace BoostOptional.Conversion
open Overload

inductive Ty where
  | prim (k : Nat)
  | opt (t : Ty)
  deriving DecidableEq, Repr

variable {β : Type}

/-- A value of a type that is no optional, or an optional that is empty or holds a value. -/
inductive Val (β : Type) where
  | base (v : β)
  | empty
  | full (v : Val β)
  deriving DecidableEq, Repr

def Val.HasType : Val β → Ty → Prop
  | .base _, .prim _ => True
  | .empty, .opt _ => True
  | .full v, .opt t => v.HasType t
  | _, _ => False

/-- A value of a type that is no optional. -/
theorem Val.HasType.base {k : Nat} {x : Val β} (typed : x.HasType (.prim k)) : ∃ b, x = .base b := by
  cases x with
  | base b => exact ⟨b, rfl⟩
  | empty | full _ => cases typed

/-- A type as its users see it. The argument of an operation has a type and a value category, and
`none` is an ill-formed program. -/
structure TypeOps (β : Type) where
  isScalar : Bool
  /-- There is a standard conversion from the type, so no constructor is called. -/
  standard : Ty → Bool
  convertible : Ty → Cat → Bool
  constructible : Ty → Cat → Bool
  assignable : Ty → Cat → Bool
  convert : Ty → Cat → Val β → Option (Val β)
  construct : Ty → Cat → Val β → Option (Val β)
  assign : Ty → Cat → Val β → Val β → Option (Val β)

/-! ### How an argument reaches a parameter -/

def TypeOps.rank (ops : TypeOps β) (X : Ty) (c : Cat) : Option Rank :=
  if ops.standard X then some .conversion
  else if ops.convertible X c then some .userDefined
  else none

/-- To `P const&`. -/
def bindConst (same : Bool) (rank : Option Rank) (c : Cat) : Option Sequence :=
  if same then some ⟨.exact, false, c != .constLvalue⟩
  else rank.map fun r => ⟨r, false, true⟩

/-- To `P&&`, which does not bind to an lvalue of type `P`. -/
def bindRvalue (same : Bool) (rank : Option Rank) (c : Cat) : Option Sequence :=
  if same then if c = .rvalue then some ⟨.exact, true, false⟩ else none
  else rank.map fun r => ⟨r, true, false⟩

/-- To `U&&` with `U` deduced from the argument. -/
def bindForward (c : Cat) : Sequence := ⟨.exact, c == .rvalue, false⟩

/-- A template over `optional<U>` is more specialized than one over `U&&`. -/
def overOptional : Option Nat := some 1

def overAnything : Option Nat := some 0

/-! ### The overloads of optional -/

inductive Ctor where
  | valueCopy | valueMove | copy | move | convCopy | convMove | forward
  deriving DecidableEq, Repr

inductive Assignment where
  | copy | move | convCopy | convMove | forward
  deriving DecidableEq, Repr

section Optional

variable (T : Ty) (ops : TypeOps β)

/-- Implicit conversion to `optional<T>`: the constructors from a `T` are the ones not explicit. -/
def convertible (X : Ty) (_ : Cat) : Bool := X = .opt T || X = T || ops.standard X

def optionalRank (X : Ty) (c : Cat) : Option Rank :=
  if convertible T ops X c then some .userDefined else none

def ctors (X : Ty) (c : Cat) : List (Candidate Ctor) :=
  List.reduceOption [
    (bindConst (X = T) (ops.rank X c) c).map fun s => ⟨.valueCopy, s, none⟩,
    (bindRvalue (X = T) (ops.rank X c) c).map fun s => ⟨.valueMove, s, none⟩,
    (bindConst (X = .opt T) (optionalRank T ops X c) c).map fun s => ⟨.copy, s, none⟩,
    (bindRvalue (X = .opt T) (optionalRank T ops X c) c).map fun s => ⟨.move, s, none⟩,
    match X with
    | .opt U =>
      if ops.constructible U .constLvalue then
        (bindConst true none c).map fun s => ⟨.convCopy, s, overOptional⟩
      else none
    | .prim _ => none,
    match X with
    | .opt U =>
      if ops.constructible U .rvalue then (bindRvalue true none c).map fun s =>
        ⟨.convMove, s, overOptional⟩
      else none
    | .prim _ => none,
    -- the constructor from `U&&` is for no type that is tagged as an optional
    match X with
    | .opt _ => none
    | .prim _ => if ops.constructible X c then some ⟨.forward, bindForward c, overAnything⟩ else none]

def assignments (X : Ty) (c : Cat) : List (Candidate Assignment) :=
  List.reduceOption [
    (bindConst (X = .opt T) (optionalRank T ops X c) c).map fun s => ⟨.copy, s, none⟩,
    (bindRvalue (X = .opt T) (optionalRank T ops X c) c).map fun s => ⟨.move, s, none⟩,
    match X with
    | .opt _ => (bindConst true none c).map fun s => ⟨.convCopy, s, overOptional⟩
    | .prim _ => none,
    match X with
    | .opt _ => (bindRvalue true none c).map fun s => ⟨.convMove, s, overOptional⟩
    | .prim _ => none,
    if X ≠ .opt T ∧ ¬ (ops.isScalar = true ∧ X = T) ∧ ops.constructible X c = true ∧
    ops.assignable X c = true then
      some ⟨.forward, bindForward c, overAnything⟩
    else none]

/-- The `T` that a parameter `T const&` or `T&&` is bound to. -/
def asValue (X : Ty) (c : Cat) (x : Val β) : Option (Val β) :=
  if X = T then some x else ops.convert X c x

def convert (X : Ty) (c : Cat) (x : Val β) : Option (Val β) :=
  (asValue T ops X c x).bind fun v => (ops.construct T (if X = T then c.bound else .rvalue) v).map .full

/-- The `optional<T>` that a parameter `optional const&` or `optional&&` is bound to. -/
def asOptional (X : Ty) (c : Cat) (x : Val β) : Option (Val β) :=
  if X = .opt T then some x else convert T ops X c x

/-- The value that an argument of type `optional<U>` has, and its type. -/
def element : Ty → Ty
  | .opt U => U
  | X => X

/-- The constructors from an optional, over the type and category of `*rhs`. -/
def constructFrom (U : Ty) (cat : Cat) : Val β → Option (Val β)
  | .empty => some .empty
  | .full u => (ops.construct U cat u).map .full
  | .base _ => none

/-- The assignments from an optional. The body is compiled whole, so `T` has to be constructible
and assignable from `*rhs`. -/
def assignFrom (U : Ty) (cat : Cat) (o rhs : Val β) : Option (Val β) :=
  if ops.constructible U cat = true ∧ ops.assignable U cat = true then
    match o, rhs with
    | .full t, .full u => (ops.assign U cat t u).map .full
    | .full _, .empty => some .empty
    | .empty, .full u => (ops.construct U cat u).map .full
    | .empty, .empty => some .empty
    | _, _ => none
  else none

/-- `operator=(U&&)` -/
def assignForward (X : Ty) (c : Cat) (o x : Val β) : Option (Val β) :=
  match o with
  | .full t => (ops.assign X c t x).map .full
  | .empty => (ops.construct X c x).map .full
  | .base _ => none

def runCtor (X : Ty) (c : Cat) (x : Val β) : Ctor → Option (Val β)
  | .valueCopy => (asValue T ops X c x).bind fun v => (ops.construct T .constLvalue v).map .full
  | .valueMove => (asValue T ops X c x).bind fun v => (ops.construct T .rvalue v).map .full
  | .copy => (asOptional T ops X c x).bind (constructFrom ops T .constLvalue)
  | .move => (asOptional T ops X c x).bind (constructFrom ops T .rvalue)
  | .convCopy => constructFrom ops (element X) .constLvalue x
  | .convMove => constructFrom ops (element X) .rvalue x
  | .forward => (ops.construct X c x).map .full

def runAssignment (X : Ty) (c : Cat) (o x : Val β) : Assignment → Option (Val β)
  | .copy => (asOptional T ops X c x).bind (assignFrom ops T .constLvalue o)
  | .move => (asOptional T ops X c x).bind (assignFrom ops T .rvalue o)
  | .convCopy => assignFrom ops (element X) .constLvalue o x
  | .convMove => assignFrom ops (element X) .rvalue o x
  | .forward => assignForward ops X c o x

/-- `optional<T> p(x);` -/
def construct (X : Ty) (c : Cat) (x : Val β) : Option (Val β) :=
  (resolve (ctors T ops X c)).bind (runCtor T ops X c x)

/-- `o = x;` -/
def assign (X : Ty) (c : Cat) (o x : Val β) : Option (Val β) :=
  (resolve (assignments T ops X c)).bind (runAssignment T ops X c o x)

/-- `o.reset(x);` for `x` of type `T`. -/
def reset (o x : Val β) : Option (Val β) := assign T ops T .constLvalue o x

def optional : TypeOps β where
  isScalar := false
  standard _ := false
  convertible := convertible T ops
  constructible X c := (resolve (ctors T ops X c)).isSome
  assignable X c := (resolve (assignments T ops X c)).isSome
  convert := convert T ops
  construct := construct T ops
  assign := assign T ops

end Optional

/-- The operations of every type, from those of the types that are no optionals. -/
def typeOps (prims : Nat → TypeOps β) : Ty → TypeOps β
  | .prim k => prims k
  | .opt T => optional T (typeOps prims T)

end BoostOptional.Conversion
