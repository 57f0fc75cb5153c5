import BoostOptional.Conversion.Selection

/-!
The constructors and the assignment operators of the legacy implementation (`optional.hpp`) as
overload resolution selects them, over the operations of `T`. An assignment operator calls `assign` of
its base, which is overloaded again. A scalar `T` has `tc_optional_base`, any other `optional_base`.
-/

namespace BoostOptional.Conversion.Legacy
open Overload

variable {β : Type}

section Implementation

variable (T : Ty) (ops : TypeOps β)

/-! ### Overloads -/

/-- `is_optional_val_init_candidate<T, Expr>`: `has_dedicated_constructor` takes out the optionals
and `T` itself. -/
def isValInitCandidate (X : Ty) (c : Cat) : Bool :=
  match X with
  | .opt _ => false
  | .prim _ => X ≠ T && ops.constructible X c

/-- `is_optional_val_assign_candidate<T, Expr>`, where `is_opt_assignable` asks for an implicit
conversion to `T` too. -/
def isValAssignCandidate (X : Ty) (c : Cat) : Bool :=
  match X with
  | .opt _ => false
  | .prim _ => X ≠ T && (ops.rank X c).isSome && ops.assignable X c

def ctors (X : Ty) (c : Cat) : List (Candidate Ctor) :=
  List.reduceOption [
    (bindConst (X = T) (ops.rank X c) c).map fun s => ⟨.valueCopy, s, none⟩,
    (bindRvalue (X = T) (ops.rank X c) c).map fun s => ⟨.valueMove, s, none⟩,
    (bindConst (X = .opt T) (optionalRank T ops X c) c).map fun s => ⟨.copy, s, none⟩,
    (bindRvalue (X = .opt T) (optionalRank T ops X c) c).map fun s => ⟨.move, s, none⟩,
    match X with
    | .opt U =>
      if ops.constructible U .constLvalue then
        (bindConst true none c).map fun s => ⟨.convCopy, s, overOptional⟩
      else none
    | .prim _ => none,
    match X with
    | .opt U =>
      if ops.constructible U .rvalue then (bindRvalue true none c).map fun s =>
        ⟨.convMove, s, overOptional⟩
      else none
    | .prim _ => none,
    if isValInitCandidate T ops X c then some ⟨.forward, bindForward c, overAnything⟩ else none]

/-- `expr` is `operator=(Expr&&)`, and `value` is `operator=(T_&&)` for a `T_` that is `T`. -/
inductive Assignment where
  | expr | convCopy | convMove | copy | move | value
  deriving DecidableEq, Repr

def assignments (X : Ty) (c : Cat) : List (Candidate Assignment) :=
  List.reduceOption [
    if isValAssignCandidate T ops X c then some ⟨.expr, bindForward c, overAnything⟩ else none,
    match X with
    | .opt _ => (bindConst true none c).map fun s => ⟨.convCopy, s, overOptional⟩
    | .prim _ => none,
    match X with
    | .opt _ => (bindRvalue true none c).map fun s => ⟨.convMove, s, overOptional⟩
    | .prim _ => none,
    (bindConst (X = .opt T) (optionalRank T ops X c) c).map fun s => ⟨.copy, s, none⟩,
    (bindRvalue (X = .opt T) (optionalRank T ops X c) c).map fun s => ⟨.move, s, none⟩,
    if X = T then some ⟨.value, bindForward c, overAnything⟩ else none]

/-- The overloads of `assign` in the bases: from a base, from an `optional<U>` and from a `T`. -/
inductive BaseAssign where
  | copy | move | convCopy | convMove | valueCopy | valueMove
  deriving DecidableEq, Repr

/-- An `optional<T>` is converted to its base. `tc_optional_base` takes neither a base nor a `T` by
rvalue reference. -/
def baseAssigns (X : Ty) (c : Cat) : List (Candidate BaseAssign) :=
  List.reduceOption [
    if X = .opt T then some ⟨.copy, ⟨.conversion, false, c != .constLvalue⟩, none⟩ else none,
    if X = .opt T ∧ c = .rvalue ∧ ops.isScalar = false then some ⟨.move, ⟨.conversion, true, false⟩, none⟩
    else none,
    match X with
    | .opt _ => (bindConst true none c).map fun s => ⟨.convCopy, s, overOptional⟩
    | .prim _ => none,
    match X with
    | .opt _ => (bindRvalue true none c).map fun s => ⟨.convMove, s, overOptional⟩
    | .prim _ => none,
    (bindConst (X = T) (ops.rank X c) c).map fun s => ⟨.valueCopy, s, none⟩,
    if ops.isScalar then none
    else (bindRvalue (X = T) (ops.rank X c) c).map fun s => ⟨.valueMove, s, none⟩]

/-! ### Bodies -/

/-- An argument binds to `T const&` or `T&&`, if need be through an implicit conversion. -/
def binds (X : Ty) (c : Cat) : Bool := X = T || (ops.rank X c).isSome

/-- The category of the `T` that it is bound to. -/
def boundCat (X : Ty) (c : Cat) : Cat := if X = T then c.bound else .rvalue

/-- A `T` that is stored in an optional without a value: by `T`'s constructor, and in
`tc_optional_base` by a built-in assignment. -/
def place (cat : Cat) (v : Val β) : Option (Val β) :=
  if ops.isScalar then some v else ops.construct T cat v

/-- A `T` that is stored over the value `t`. -/
def overwrite (cat : Cat) (t v : Val β) : Option (Val β) :=
  if ops.isScalar then some v else ops.assign T cat t v

/-- `construct(val)` of the base. -/
def baseConstruct (X : Ty) (c : Cat) (x : Val β) : Option (Val β) :=
  (asValue T ops X c x).bind (place T ops (boundCat T X c))

/-- `assign_value(val)` of the base. -/
def assignValue (X : Ty) (c : Cat) (t x : Val β) : Option (Val β) :=
  (asValue T ops X c x).bind (overwrite T ops (boundCat T X c) t)

/-- Whether `construct(val)` compiles. -/
def constructs (X : Ty) (c : Cat) : Bool :=
  binds T ops X c && (ops.isScalar || ops.constructible T (boundCat T X c))

/-- Whether `assign_value(val)` compiles. -/
def assigns (X : Ty) (c : Cat) : Bool :=
  binds T ops X c && (ops.isScalar || ops.assignable T (boundCat T X c))

/-- The constructors from an `optional<U>`, whose body constructs from `rhs.get()`. -/
def constructFrom (U : Ty) (cat : Cat) (rhs : Val β) : Option (Val β) :=
  if constructs T ops U cat then
    match rhs with
    | .empty => some .empty
    | .full u => (baseConstruct T ops U cat u).map .full
    | .base _ => none
  else none

/-- `assign` from a base and from an `optional<U>`. -/
def assignFrom (U : Ty) (cat : Cat) (o rhs : Val β) : Option (Val β) :=
  if constructs T ops U cat && assigns T ops U cat then
    match o, rhs with
    | .full t, .full u => (assignValue T ops U cat t u).map .full
    | .full _, .empty => some .empty
    | .empty, .full u => (baseConstruct T ops U cat u).map .full
    | .empty, .empty => some .empty
    | _, _ => none
  else none

/-- `assign(argument_type)` and `assign(rval_reference_type)`, over the category that is passed on. -/
def assignT (cat : Cat) (o v : Val β) : Option (Val β) :=
  match o with
  | .full t => (overwrite T ops cat t v).map .full
  | .empty => (place T ops cat v).map .full
  | .base _ => none

/-- `assign_expr(expr, tag)` for an `expr` that is no factory. `tc_optional_base` converts it to a
`T` in any case. -/
def assignExpr (X : Ty) (c : Cat) (o x : Val β) : Option (Val β) :=
  if ops.constructible X c && (ops.isScalar || assigns T ops X c) then
    match o with
    | .full t => (if ops.isScalar then ops.construct X c x else assignValue T ops X c t x).map .full
    | .empty => (ops.construct X c x).map .full
    | .base _ => none
  else none

def runBaseAssign (X : Ty) (c : Cat) (o x : Val β) : BaseAssign → Option (Val β)
  | .copy => assignFrom T ops T .constLvalue o x
  | .move => assignFrom T ops T .rvalue o x
  | .convCopy => assignFrom T ops (element X) .constLvalue o x
  | .convMove => assignFrom T ops (element X) .rvalue o x
  | .valueCopy => (asValue T ops X c x).bind (assignT T ops .constLvalue o)
  | .valueMove => (asValue T ops X c x).bind (assignT T ops .rvalue o)

/-- `this->assign(x)` -/
def baseAssign (X : Ty) (c : Cat) (o x : Val β) : Option (Val β) :=
  (resolve (baseAssigns T ops X c)).bind (runBaseAssign T ops X c o x)

/-- The constructor of `tc_optional_base` from a `T` takes a `T const&`. -/
def storedCat (cat : Cat) : Cat := if ops.isScalar then .constLvalue else cat

/-- Implicit conversion to `optional<T>`. -/
def convert (X : Ty) (c : Cat) (x : Val β) : Option (Val β) :=
  (asValue T ops X c x).bind fun v => (ops.construct T (storedCat ops (boundCat T X c)) v).map .full

/-- The `optional<T>` that a parameter `optional const&` or `optional&&` is bound to. -/
def asOptional (X : Ty) (c : Cat) (x : Val β) : Option (Val β) :=
  if X = .opt T then some x else convert T ops X c x

/-- The copy and the move constructor are those of the base, which are the same for both bases. -/
def runCtor (X : Ty) (c : Cat) (x : Val β) : Ctor → Option (Val β)
  | .valueCopy => (asValue T ops X c x).bind fun v => (ops.construct T .constLvalue v).map .full
  | .valueMove => (asValue T ops X c x).bind fun v => (ops.construct T (storedCat ops .rvalue) v).map .full
  | .copy => (asOptional T ops X c x).bind (Conversion.constructFrom ops T .constLvalue)
  | .move => (asOptional T ops X c x).bind (Conversion.constructFrom ops T .rvalue)
  | .convCopy => constructFrom T ops (element X) .constLvalue x
  | .convMove => constructFrom T ops (element X) .rvalue x
  | .forward => (ops.construct X c x).map .full

/-- The defaulted assignments are those of the base: `assign` in `optional_base`, memberwise in
`tc_optional_base`. -/
def runAssignment (X : Ty) (c : Cat) (o x : Val β) : Assignment → Option (Val β)
  | .expr => assignExpr T ops X c o x
  | .convCopy => baseAssign T ops X .constLvalue o x
  | .convMove => baseAssign T ops X .rvalue o x
  | .copy => (asOptional T ops X c x).bind (assignFrom T ops T .constLvalue o)
  | .move => (asOptional T ops X c x).bind (assignFrom T ops T .rvalue o)
  | .value => baseAssign T ops T c o x

/-- `optional<T> p(x);` -/
def construct (X : Ty) (c : Cat) (x : Val β) : Option (Val β) :=
  (resolve (ctors T ops X c)).bind (runCtor T ops X c x)

/-- `o = x;` -/
def assign (X : Ty) (c : Cat) (o x : Val β) : Option (Val β) :=
  (resolve (assignments T ops X c)).bind (runAssignment T ops X c o x)

/-- `o.reset(x);` for `x` of type `T`, which is `assign` of the base. -/
def reset (o x : Val β) : Option (Val β) := baseAssign T ops T .constLvalue o x

def optional : TypeOps β where
  isScalar := false
  standard _ := false
  convertible := convertible T ops
  constructible X c := (resolve (ctors T ops X c)).isSome
  assignable X c := (resolve (assignments T ops X c)).isSome
  convert := convert T ops
  construct := construct T ops
  assign := assign T ops

end Implementation

/-- The operations of every type, from those of the types that are no optionals. -/
def typeOps (prims : Nat → TypeOps β) : Ty → TypeOps β
  | .prim k => prims k
  | .opt T => optional T (typeOps prims T)

/-! ### Which overload is selected -/

/-- Only the constructor from an `Expr&&` has another constraint, and only for `T` itself. -/
theorem ctors_eq {T X : Ty} (ops : TypeOps β) (c : Cat) (other : X ≠ T ∨ ∃ U, X = .opt U) :
    ctors T ops X c = Conversion.ctors T ops X c := by
  cases X with
  | opt U => rfl
  | prim k =>
    have notOwn : Ty.prim k ≠ T := other.resolve_right nofun
    simp [ctors, Conversion.ctors, isValInitCandidate, notOwn]

theorem resolve_ctors_own (T : Ty) (ops : TypeOps β) (c : Cat) :
    resolve (ctors T ops T c) = some (if c = .rvalue then .valueMove else .valueCopy) := by
  cases T with
  | opt V => rw [ctors_eq ops c (.inr ⟨V, rfl⟩), Conversion.resolve_ctors_own]
  | prim k =>
    cases c <;> simp [ctors, isValInitCandidate, bindConst, bindRvalue, optionalRank, convertible,
      List.reduceOption] <;> decide

theorem resolve_assignments_own (T : Ty) (ops : TypeOps β) (c : Cat) :
    resolve (assignments T ops T c) =
      some (match T, c with
        | .opt _, .constLvalue => .convCopy
        | .opt _, .rvalue => .convMove
        | _, _ => .value) := by
  cases T with
  | prim k =>
    cases c <;> simp [assignments, isValAssignCandidate, bindConst, bindRvalue, bindForward, optionalRank,
      convertible, List.reduceOption] <;> decide
  | opt V =>
    cases c <;> simp [assignments, isValAssignCandidate, bindConst, bindRvalue, bindForward, optionalRank,
      convertible, List.reduceOption] <;> decide

theorem resolve_assignments_same (T : Ty) (ops : TypeOps β) (c : Cat) :
    resolve (assignments T ops (.opt T) c) = some (if c = .rvalue then .move else .copy) := by
  cases c <;> simp [assignments, isValAssignCandidate, bindConst, bindRvalue, List.reduceOption] <;> decide

theorem resolve_assignments_other {T U : Ty} (ops : TypeOps β) (c : Cat) (notOwn : Ty.opt U ≠ T)
    (notSame : U ≠ T) (flat : ops.standard (.opt U) = false) :
    resolve (assignments T ops (.opt U) c) = some (if c = .rvalue then .convMove else .convCopy) := by
  cases c <;> simp [assignments, isValAssignCandidate, bindConst, bindRvalue, optionalRank, convertible, flat,
    List.reduceOption, notOwn, notSame] <;> decide

theorem resolve_assignments_flat {T : Ty} {k : Nat} (ops : TypeOps β) (c : Cat) (notOwn : Ty.prim k ≠ T) :
    resolve (assignments T ops (.prim k) c) =
      if isValAssignCandidate T ops (.prim k) c = true then some .expr
      else if ops.standard (.prim k) = true then some .move
      else none := by
  unfold assignments optionalRank convertible
  generalize isValAssignCandidate T ops (.prim k) c = candidate
  generalize ops.standard (.prim k) = standard
  cases c <;> cases standard <;> cases candidate <;>
    simp [bindConst, bindRvalue, bindForward, List.reduceOption, notOwn] <;> decide

/-- A `T` is taken for the value it is, also when it is an optional. -/
theorem resolve_baseAssigns_own (T : Ty) (ops : TypeOps β) (c : Cat)
    (storage : ∀ V, T = .opt V → ops.isScalar = false) :
    resolve (baseAssigns T ops T c) =
      some (if c = .rvalue ∧ ops.isScalar = false then .valueMove else .valueCopy) := by
  cases T with
  | prim k =>
    cases c <;> cases scalar : ops.isScalar <;>
      simp [baseAssigns, bindConst, bindRvalue, scalar, List.reduceOption] <;> decide
  | opt V =>
    cases c <;> simp [baseAssigns, bindConst, bindRvalue, storage V rfl, List.reduceOption] <;> decide

theorem resolve_baseAssigns_other {T U : Ty} (ops : TypeOps β) (c : Cat) (notOwn : Ty.opt U ≠ T)
    (notSame : U ≠ T) (flat : ops.standard (.opt U) = false) :
    resolve (baseAssigns T ops (.opt U) c) = some (if c = .rvalue then .convMove else .convCopy) := by
  unfold baseAssigns TypeOps.rank
  simp only [flat]
  generalize ops.isScalar = scalar
  generalize ops.convertible (.opt U) c = converts
  cases c <;> cases converts <;> cases scalar <;>
    simp [bindConst, bindRvalue, List.reduceOption, notOwn, notSame] <;> decide

end BoostOptional.Conversion.Legacy
