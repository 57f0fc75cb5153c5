import BoostOptional.Conversion.Types

/-!
Which constructor and which assignment operator overload resolution selects, by the type of the
source: `T` itself, `optional<T>`, another optional, or a type that is no optional.
-/

namespace BoostOptional.Conversion
open Overload

variable {β : Type}

@[simp] theorem Ty.ne_opt (T : Ty) : T ≠ .opt T := fun same => by
  have size := congrArg sizeOf same
  simp at size

@[simp] theorem Ty.opt_ne (T : Ty) : .opt T ≠ T := (Ty.ne_opt T).symm

/-! ### Constructors -/

theorem resolve_ctors_own (V : Ty) (ops : TypeOps β) (c : Cat) :
    resolve (ctors (.opt V) ops (.opt V) c) = some (if c = .rvalue then .valueMove
        else .valueCopy) := by
  cases c <;> cases first : ops.constructible V .constLvalue <;> cases second : ops.constructible V .rvalue <;>
    simp [ctors, bindConst, bindRvalue, optionalRank, convertible, first, second, List.reduceOption] <;> decide

/-- From a `T` that is no optional. A non-const lvalue goes to the constructor from `U&&`. -/
theorem resolve_ctors_prim (k : Nat) (ops : TypeOps β) (c : Cat) :
    resolve (ctors (.prim k) ops (.prim k) c) =
      some (if c = .rvalue then .valueMove
        else if c = .lvalue ∧ ops.constructible (.prim k) .lvalue = true then .forward
        else .valueCopy) := by
  cases c with
  | constLvalue =>
    cases first : ops.constructible (.prim k) .constLvalue <;>
      simp [ctors, bindConst, bindRvalue, optionalRank, convertible, first, List.reduceOption] <;> decide
  | lvalue =>
    cases first : ops.constructible (.prim k) .lvalue <;>
      simp [ctors, bindConst, bindRvalue, optionalRank, convertible, first, List.reduceOption] <;> decide
  | rvalue =>
    cases first : ops.constructible (.prim k) .rvalue <;>
      simp [ctors, bindConst, bindRvalue, optionalRank, convertible, first, List.reduceOption] <;> decide

theorem resolve_ctors_same (T : Ty) (ops : TypeOps β) (c : Cat) :
    resolve (ctors T ops (.opt T) c) = some (if c = .rvalue then .move else .copy) := by
  unfold ctors TypeOps.rank
  dsimp only
  generalize ops.standard (.opt T) = standard
  generalize ops.convertible (.opt T) c = converts
  generalize ops.constructible T .constLvalue = first
  generalize ops.constructible T .rvalue = second
  cases c <;> cases standard <;> cases converts <;> cases first <;> cases second <;>
    simp [bindConst, bindRvalue, List.reduceOption] <;> decide

/-- From any other optional. Without a `T` made from the value of the source, what is left is to
convert the source itself to a `T`. -/
theorem resolve_ctors_other {T U : Ty} (ops : TypeOps β) (c : Cat) (notOwn : Ty.opt U ≠ T)
    (notSame : U ≠ T)
    (flat : ops.standard (.opt U) = false) :
    resolve (ctors T ops (.opt U) c) =
      if c = .rvalue ∧ ops.constructible U .rvalue = true then some .convMove
      else if ops.constructible U .constLvalue = true then some .convCopy
      else if ops.convertible (.opt U) c = true then some .valueMove
      else none := by
  unfold ctors TypeOps.rank optionalRank convertible
  simp only [flat]
  generalize ops.convertible (.opt U) c = converts
  generalize ops.constructible U .constLvalue = first
  generalize ops.constructible U .rvalue = second
  cases c <;> cases converts <;> cases first <;> cases second <;>
    simp [bindConst, bindRvalue, List.reduceOption, notOwn, notSame] <;> decide

theorem resolve_ctors_flat {T : Ty} {k : Nat} (ops : TypeOps β) (c : Cat) (notOwn : Ty.prim k ≠ T) :
    resolve (ctors T ops (.prim k) c) =
      if ops.constructible (.prim k) c = true then some .forward
      else if ops.standard (.prim k) = true ∨ ops.convertible (.prim k) c = true then some .valueMove
      else none := by
  unfold ctors TypeOps.rank optionalRank convertible
  generalize ops.standard (.prim k) = standard
  generalize ops.convertible (.prim k) c = converts
  generalize ops.constructible (.prim k) c = first
  cases c <;> cases standard <;> cases converts <;> cases first <;>
    simp [bindConst, bindRvalue, bindForward, List.reduceOption, notOwn] <;> decide

/-! ### Assignment operators -/

/-- Of a `T` that is an optional: only a non-const lvalue is taken for the value it is. -/
theorem resolve_assignments_own (V : Ty) (ops : TypeOps β) (c : Cat) :
    resolve (assignments (.opt V) ops (.opt V) c) =
      some (if c = .rvalue then .convMove
        else if c = .lvalue ∧ ¬ (ops.isScalar = true) ∧ ops.constructible (.opt V) .lvalue = true ∧
          ops.assignable (.opt V) .lvalue = true then .forward
        else .convCopy) := by
  unfold assignments optionalRank convertible
  generalize ops.isScalar = scalar
  cases c with
  | constLvalue =>
    generalize ops.constructible (.opt V) .constLvalue = first
    generalize ops.assignable (.opt V) .constLvalue = second
    cases scalar <;> cases first <;> cases second <;>
      simp [bindConst, bindRvalue, bindForward, List.reduceOption] <;> decide
  | lvalue =>
    generalize ops.constructible (.opt V) .lvalue = first
    generalize ops.assignable (.opt V) .lvalue = second
    cases scalar <;> cases first <;> cases second <;>
      simp [bindConst, bindRvalue, bindForward, List.reduceOption] <;> decide
  | rvalue =>
    generalize ops.constructible (.opt V) .rvalue = first
    generalize ops.assignable (.opt V) .rvalue = second
    cases scalar <;> cases first <;> cases second <;>
      simp [bindConst, bindRvalue, bindForward, List.reduceOption] <;> decide

/-- Of a `T` that is no optional. What `operator=(U&&)` does not take is converted to an
`optional<T>` and moved from. -/
theorem resolve_assignments_prim (k : Nat) (ops : TypeOps β) (c : Cat) :
    resolve (assignments (.prim k) ops (.prim k) c) =
      some (if ¬ (ops.isScalar = true) ∧ ops.constructible (.prim k) c = true ∧
        ops.assignable (.prim k) c = true then
        .forward else .move) := by
  unfold assignments optionalRank convertible
  generalize ops.isScalar = scalar
  generalize ops.constructible (.prim k) c = first
  generalize ops.assignable (.prim k) c = second
  cases c <;> cases scalar <;> cases first <;> cases second <;>
    simp [bindConst, bindRvalue, bindForward, List.reduceOption] <;> decide

theorem resolve_assignments_same (T : Ty) (ops : TypeOps β) (c : Cat) :
    resolve (assignments T ops (.opt T) c) = some (if c = .rvalue then .move else .copy) := by
  cases c <;> simp [assignments, bindConst, bindRvalue, List.reduceOption] <;> decide

theorem resolve_assignments_other {T U : Ty} (ops : TypeOps β) (c : Cat) (notOwn : Ty.opt U ≠ T)
    (notSame : U ≠ T)
    (flat : ops.standard (.opt U) = false) :
    resolve (assignments T ops (.opt U) c) =
      some (if c = .rvalue then .convMove
        else if c = .lvalue ∧ ops.constructible (.opt U) .lvalue = true ∧
        ops.assignable (.opt U) .lvalue = true then
          .forward
        else .convCopy) := by
  unfold assignments optionalRank convertible
  simp only [flat]
  generalize ops.isScalar = scalar
  cases c with
  | constLvalue =>
    generalize ops.constructible (.opt U) .constLvalue = first
    generalize ops.assignable (.opt U) .constLvalue = second
    cases first <;> cases second <;>
      simp [bindConst, bindRvalue, bindForward, List.reduceOption, notOwn, notSame] <;> decide
  | lvalue =>
    generalize ops.constructible (.opt U) .lvalue = first
    generalize ops.assignable (.opt U) .lvalue = second
    cases first <;> cases second <;>
      simp [bindConst, bindRvalue, bindForward, List.reduceOption, notOwn, notSame] <;> decide
  | rvalue =>
    generalize ops.constructible (.opt U) .rvalue = first
    generalize ops.assignable (.opt U) .rvalue = second
    cases first <;> cases second <;>
      simp [bindConst, bindRvalue, bindForward, List.reduceOption, notOwn, notSame] <;> decide

theorem resolve_assignments_flat {T : Ty} {k : Nat} (ops : TypeOps β) (c : Cat) (notOwn : Ty.prim k ≠ T) :
    resolve (assignments T ops (.prim k) c) =
      if ops.constructible (.prim k) c = true ∧ ops.assignable (.prim k) c = true then some .forward
      else if ops.standard (.prim k) = true then some .move
      else none := by
  unfold assignments optionalRank convertible
  generalize ops.standard (.prim k) = standard
  generalize ops.constructible (.prim k) c = first
  generalize ops.assignable (.prim k) c = second
  cases c <;> cases standard <;> cases first <;> cases second <;>
    simp [bindConst, bindRvalue, bindForward, List.reduceOption, notOwn] <;> decide

end BoostOptional.Conversion
