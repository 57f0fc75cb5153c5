import BoostOptional.Accessors.Functions
import BoostOptional.Effect.Part
import BoostOptional.ReferenceSpec.Functions

/-!
The accessors of `optional<T&>` (`detail/optional_reference_spec.hpp`), and programs that own values in
optionals, bind references to them, and read and write through the references.
-/

namespace BoostOptional.ReferenceSpec
open Effect Prog

/-- A function that returns a reference, or an rvalue, of a type `R`. -/
structure Supplier (α ε : Type) where
  type : Nat
  isLvalue : Bool
  call : (Loc → Option α) → Except ε Loc

variable {α ε : Type} (types : Referees) (allow : Bool)

/-- `value()` -/
def value (this : Nat) : Code α (Thrown ε) Loc := do
  if ← hasValue this then get this else raise .badOptionalAccess

/-- `get_value_or(r)` and `value_or(r)` -/
def valueOr (this : Nat) (r : RefArg) : Code α (Thrown ε) Loc := do
  preventBindingRvalue allow r.isLvalue
  match ← load this with
  | .to l => pure l
  | _ => pure (types.convert r.type (types.type this) r.loc)

/-- The assertion of `forward_reference`, which no configuration turns off. -/
def forwardReference (f : Supplier α ε) : Code α (Thrown ε) Unit :=
  if f.isLvalue then pure () else fail .staticAssert

/-- The call `f()` -/
def callSupplier (f : Supplier α ε) : Code α (Thrown ε) Loc := fun s =>
  match f.call s.world.value with
  | .ok l => .ok l s
  | .error e => .thrown (.user e) s

def valueOrEval (this : Nat) (f : Supplier α ε) : Code α (Thrown ε) Loc := do
  forwardReference f
  match ← load this with
  | .to l => pure l
  | _ => do
    let l ← callSupplier f
    pure (types.convert f.type (types.type this) l)

/-- The accessors that return a `T&`. -/
inductive Access (α ε : Type) where
  /-- `*r` and `r.get()` -/
  | get
  | value
  /-- `r.value_or(y)` and `r.get_value_or(y)` -/
  | valueOr (y : RefArg)
  | valueOrEval (f : Supplier α ε)

/-- The object that an accessor of `this` refers to. -/
def Access.locate (this : Nat) : Access α ε → Code α (Thrown ε) Loc
  | .get => ReferenceSpec.get this
  | .value => ReferenceSpec.value this
  | .valueOr y => ReferenceSpec.valueOr types allow this y
  | .valueOrEval f => ReferenceSpec.valueOrEval types this f

/-- A `T` in an expression: one that the program names, or one that it reaches through an
`optional<T&>`. -/
inductive Place (α ε : Type) where
  | direct (l : Loc)
  | through (this : Nat) (a : Access α ε)

def Place.locate : Place α ε → Code α (Thrown ε) Loc
  | .direct l => pure l
  | .through this a => a.locate types allow this

/-- A step of a program with optionals and optional references. -/
inductive Step (α ε : Type) where
  | owner (stmt : Statement α ε)
  | reference (op : Op)
  /-- `dst = src;` -/
  | assign (dst src : Place α ε) (cat : Cat) (ty : ArgTy)
  /-- `optional<T> o = r.map(f);` -/
  | map (o r : Nat) (f : α → Except ε α)
  /-- `optional<T> o = r.flat_map(f);` -/
  | flatMap (o r : Nat) (f : α → Except ε (Option α))

/-- The optionals and the variables, without the optional references. -/
def owners : Part (State α) (World α) := ⟨State.world, fun s w => { s with world := w }, fun _ _ => rfl⟩

variable (E : Element α) (b : Behaviour α (Thrown ε)) (impl : Impl)

/-- `r.has_value() ? f(r.get()) : optional<U>()`, where `made l` makes the optional from the `T` at `l`. -/
def mapThrough (o r : Nat) (made : Loc → BoostOptional.Code α (Thrown ε) Unit) :
    Prog (State α) (Thrown ε) (Fault ⊕ BoostOptional.Fault) Unit := do
  if ← Part.whole.run .inl (hasValue r) then do
    let l ← Part.whole.run .inl (get r)
    owners.run .inr (made l)
  else owners.run .inr (impl.exec E b (.defaultCtor o))

/-- The right operand of an assignment is evaluated first. -/
def Step.exec : Step α ε → Prog (State α) (Thrown ε) (Fault ⊕ BoostOptional.Fault) Unit
  | .owner stmt => owners.run .inr ((impl.program E b).exec stmt)
  | .reference op => Part.whole.run .inl (ReferenceSpec.exec types allow op)
  | .assign dst src cat ty => do
    let y ← Part.whole.run .inl (src.locate types allow)
    let x ← Part.whole.run .inl (dst.locate types allow)
    owners.run .inr (assignT b x ⟨y, cat, ty⟩)
  | .map o r f => mapThrough E b impl o r fun l => Accessor.mapped (impl.exec E b) o f ⟨l, .lvalue, .self⟩
  | .flatMap o r f => mapThrough E b impl o r fun l => Accessor.flatMapped (impl.exec E b) o f ⟨l, .lvalue, .self⟩

/-- What the accessor requires of the optional reference, and of the types. -/
def Access.Legal (s : State α) (this : Nat) : Access α ε → Prop
  | .get => ∃ l, s.ptr_ this = some (.to l)
  | .value => s.ptr_ this ≠ none
  | .valueOr y => s.ptr_ this ≠ none ∧ (allow || y.isLvalue) = true
  | .valueOrEval f => s.ptr_ this ≠ none ∧ f.isLvalue = true

def Place.Legal (s : State α) : Place α ε → Prop
  | .direct l => (s.world.value l).isSome = true
  | .through this a => a.Legal allow s this

/-- Nothing is asked of the object that a reference is bound to: it may be gone. -/
def Step.Legal (s : State α) : Step α ε → Prop
  | .owner stmt => stmt.Legal s.world
  | .reference op => op.Legal allow s
  | .assign dst src _ _ => dst.Legal allow s ∧ src.Legal allow s
  | .map o r _ | .flatMap o r _ => s.ptr_ r ≠ none ∧ s.world.flag (.named o) = none

/-- Programs of owners and references. -/
def program : System (State α) (Thrown ε) (Fault ⊕ BoostOptional.Fault) (Step α ε) where
  exec := Step.exec types allow E b impl
  legal step s := step.Legal allow s

end BoostOptional.ReferenceSpec
