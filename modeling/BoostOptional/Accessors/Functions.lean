import BoostOptional.Operation

/-!
The accessors of an optional (`detail/union_optional.hpp`, `optional.hpp`), in the statements that use
them. A `T` that an accessor returns is a temporary until the end of the statement. Of the optional they
use `is_initialized()` and the constructors only, and these are parameters here.
-/

namespace BoostOptional
open Effect

/-- What a statement may throw: an exception of the user, or `bad_optional_access`. -/
inductive Thrown (ε : Type) where
  | user (e : ε)
  | badOptionalAccess
  deriving DecidableEq, Repr

inductive Statement (α ε : Type) where
  /-- An operation. -/
  | operation (op : Op)
  /-- `x = o.value();` for an `o` of category `cat` -/
  | value (x this : Nat) (cat : Cat)
  /-- `x = o.get_value_or(y);` for an `o` that is `const` or not -/
  | getValueOr (x this : Nat) (isConst : Bool) (y : Nat)
  /-- `x = o.value_or(v);` for an lvalue `o`, and `x = std::move(o).value_or(v);` -/
  | valueOr (x this : Nat) (isRvalue : Bool) (v : Arg)
  /-- `x = o.value_or_eval(f);` where `f` reads values and returns a reference to an object -/
  | valueOrEval (x this : Nat) (isRvalue : Bool) (f : (Loc → Option α) → Except ε Arg)
  /-- `optional<T> r = o.map(f);` -/
  | map (r this : Nat) (cat : Cat) (f : α → Except ε α)
  /-- `optional<T> r = o.flat_map(f);` -/
  | flatMap (r this : Nat) (cat : Cat) (f : α → Except ε (Option α))

section Accessors
open Prog

variable {σ α ε : Type} [Memory σ α] (b : Behaviour α (Thrown ε)) (impl : Impl)
  (isInitialized : ObjId → Prog σ (Thrown ε) Fault Bool) (construct : Op → Prog σ (Thrown ε) Fault Unit)

namespace Accessor

/-- `get()`, with its `BOOST_ASSERT(is_initialized())` -/
def get (this : ObjId) (cat : Cat) : Prog σ (Thrown ε) Fault Arg := do
  if ← isInitialized this then pure ⟨.contained this, cat, .self⟩ else fail .assertion

/-- `value() const&`, `value() &` and `value() &&` -/
def value (this : ObjId) (cat : Cat) : Prog σ (Thrown ε) Fault Arg := do
  if ← isInitialized this then get isInitialized this cat else raise .badOptionalAccess

/-- `get_value_or`. The union implementation names `contained_val()` without the assertion. -/
def getValueOr (this : ObjId) (isConst : Bool) (y : Nat) : Prog σ (Thrown ε) Fault Arg :=
  let cat := if isConst then Cat.constLvalue else .lvalue
  do
    if ← isInitialized this then
      match impl with
      | .union _ => pure ⟨.contained this, cat, .self⟩
      | .aligned _ => get isInitialized this cat
    else pure ⟨.var y, cat, .self⟩

/-- `return v;` in a function that returns a `T` -/
def returned (v : Arg) : Prog σ (Thrown ε) Fault Unit :=
  match v.ty with
  | .self => constructT b .direct .scratch [v]
  | _ => constructT b .implicit .scratch [v]

/-- The `T` that an empty optional returns instead. The `const&` overloads of the union implementation
write `T(v)`, the others `return v;`. -/
def alternative (isRvalue : Bool) (v : Arg) : Prog σ (Thrown ε) Fault Unit :=
  match impl, isRvalue with
  | .union _, false => constructT b .direct .scratch [v]
  | _, _ => returned b v

/-- The `T` that `value_or` and `value_or_eval` return when there is one. -/
def contained (this : ObjId) (isRvalue : Bool) : Prog σ (Thrown ε) Fault Unit := do
  let v ← get isInitialized this (if isRvalue then .rvalue else .constLvalue)
  returned b v

def valueOr (this : ObjId) (isRvalue : Bool) (v : Arg) : Prog σ (Thrown ε) Fault Unit := do
  if ← isInitialized this then contained b isInitialized this isRvalue else alternative b impl isRvalue v

/-- The call `f()` -/
def callSupplier (f : (Loc → Option α) → Except ε Arg) : Prog σ (Thrown ε) Fault Arg := fun s =>
  match f (Memory.value s) with
  | .ok v => .ok v s
  | .error e => .thrown (.user e) s

def valueOrEval (this : ObjId) (isRvalue : Bool) (f : (Loc → Option α) → Except ε Arg) :
    Prog σ (Thrown ε) Fault Unit := do
  if ← isInitialized this then contained b isInitialized this isRvalue
  else do
    let v ← callSupplier f
    alternative b impl isRvalue v

/-- The call `f(v)`, of a function that reads its argument. -/
def callFunction {β : Type} (f : α → Except ε β) (v : Arg) : Prog σ (Thrown ε) Fault β := fun s =>
  match Memory.value s v.loc with
  | none => .fault (.notLive (.construct .direct .scratch [v]))
  | some x =>
    match f x with
    | .ok y => .ok y s
    | .error e => .thrown (.user e) s

/-- The new `optional<T> r` from a `T` that a function returned. -/
def fromResult (r : Nat) (y : α) : Prog σ (Thrown ε) Fault Unit := do
  vacant .scratch
  write fun s => Memory.place s .scratch y
  bracket (construct (.valueCtor r .scratch .rvalue)) (destroyT .scratch)

/-- The new `optional<T> r` from `f(v)`. -/
def mapped (r : Nat) (f : α → Except ε α) (v : Arg) : Prog σ (Thrown ε) Fault Unit := do
  let y ← callFunction f v
  fromResult construct r y

/-- The same for an `f` that returns an optional, which is `r` itself. -/
def flatMapped (r : Nat) (f : α → Except ε (Option α)) (v : Arg) : Prog σ (Thrown ε) Fault Unit := do
  match ← callFunction f v with
  | some y => fromResult construct r y
  | none => construct (.noneCtor r)

theorem mapped_eq (r : Nat) (f : α → Except ε α) (v : Arg) :
    mapped construct r f v = flatMapped construct r (fun x => (f x).map some) v := by
  funext s
  simp only [mapped, flatMapped, bind_apply, andThen, callFunction]
  cases Memory.value s v.loc with
  | none => rfl
  | some x =>
    dsimp only
    cases f x <;> rfl

def map (r : Nat) (this : ObjId) (cat : Cat) (f : α → Except ε α) : Prog σ (Thrown ε) Fault Unit := do
  if ← isInitialized this then do
    let v ← get isInitialized this cat
    mapped construct r f v
  else construct (.noneCtor r)

def flatMap (r : Nat) (this : ObjId) (cat : Cat) (f : α → Except ε (Option α)) :
    Prog σ (Thrown ε) Fault Unit := do
  if ← isInitialized this then do
    let v ← get isInitialized this cat
    flatMapped construct r f v
  else construct (.noneCtor r)

/-- `x = T(...);`, and the end of the temporary. -/
def assignResult (x : Nat) : Prog σ (Thrown ε) Fault Unit :=
  bracket (assignT b (.var x) ⟨.scratch, .rvalue, .self⟩) (destroyT .scratch)

end Accessor

def Statement.exec : Statement α ε → Prog σ (Thrown ε) Fault Unit
  | .operation op => construct op
  | .value x this cat => do
    let v ← Accessor.value isInitialized (.named this) cat
    assignT b (.var x) v
  | .getValueOr x this isConst y => do
    let v ← Accessor.getValueOr impl isInitialized (.named this) isConst y
    assignT b (.var x) v
  | .valueOr x this isRvalue v => do
    Accessor.valueOr b impl isInitialized (.named this) isRvalue v
    Accessor.assignResult b x
  | .valueOrEval x this isRvalue f => do
    Accessor.valueOrEval b impl isInitialized (.named this) isRvalue f
    Accessor.assignResult b x
  | .map r this cat f => Accessor.map isInitialized construct r (.named this) cat f
  | .flatMap r this cat f => Accessor.flatMap isInitialized construct r (.named this) cat f

theorem Statement.map_exec (r this : Nat) (cat : Cat) (f : α → Except ε α) :
    (Statement.map r this cat f).exec b impl isInitialized construct =
      (Statement.flatMap r this cat fun x => (f x).map some).exec b impl isInitialized construct := by
  simp only [Statement.exec, Accessor.map, Accessor.flatMap, Accessor.mapped_eq]

end Accessors

variable {α ε : Type}

/-- What a statement needs: as an operation does, and of an accessor the optional, a live alternative
and a new name for a new optional. -/
def Statement.Legal (w : World α) : Statement α ε → Prop
  | .operation op => op.Legal w ∧ op.SelfFree
  | .value _ this _ | .getValueOr _ this _ _ => w.flag (.named this) ≠ none
  | .valueOr _ this _ v => w.flag (.named this) ≠ none ∧ (w.value v.loc).isSome = true
  | .valueOrEval _ this _ f =>
    w.flag (.named this) ≠ none ∧ ∀ v, f w.value = .ok v → (w.value v.loc).isSome = true
  | .map r this _ _ | .flatMap r this _ _ => w.flag (.named this) ≠ none ∧ w.flag (.named r) = none

/-- A program of operations and statements with accessors. -/
def Impl.program (E : Element α) (b : Behaviour α (Thrown ε)) (impl : Impl) :
    System (World α) (Thrown ε) Fault (Statement α ε) where
  exec := Statement.exec b impl isInitialized (impl.exec E b)
  legal s w := s.Legal w

end BoostOptional
