import Mathlib.Logic.Function.Basic
import BoostOptional.Effect.Correctness
import BoostOptional.Operation

/-!
Values. For an element type whose operations copy, move and swap values, an operation on optionals is
described by what it does to the values: an optional is a place that holds a value or nothing. The
table says nothing of flags, storage, temporaries or the calls that are made.
-/

namespace BoostOptional
open Effect Prog Memory

/-- The value in each place. In an optional there is none when it is empty. -/
abbrev Values (α : Type) : Type := Loc → Option α

/-- What the operations of an element type make of values. `left` is what a move leaves behind. For a
`T` that is an optional itself, `storeInner t x` is what becomes of `t` in `t = *x`: the value of `x`
where the value in it is no optional, and where it is one, what its own assignment leaves. -/
structure Semantics (α : Type) where
  make : Init → List (ArgTy × Option α) → α
  storeInner : α → α → α
  left : α → α
  make_self : ∀ x, make .direct [(.self, some x)] = x
  make_implicit : ∀ x, make .implicit [(.other, x)] = make .direct [(.other, x)]

/-- Some argument moves from `l`. -/
def moves (args : List Arg) (l : Loc) : Bool := args.any fun v => v.loc = l ∧ v.cat = .rvalue

/-- An assignment from `v` to `dst` that is not a move or a conversion of `dst` into itself. -/
def Unaliased (dst : Loc) (v : Arg) : Prop := v.loc ≠ dst ∨ v.ty ≠ .other ∧ v.cat ≠ .rvalue

variable {α ε : Type}

namespace Semantics

variable (R : Semantics α)

/-- What the arguments of a call hold after it. -/
def leave (args : List Arg) (vals : Values α) : Values α := fun l =>
  if moves args l then (vals l).map R.left else vals l

/-- `T(args...)` at `dst` -/
def construct (how : Init) (dst : Loc) (args : List Arg) (vals : Values α) : Values α :=
  Function.update (R.leave args vals) dst (some (R.make how (args.map fun v => (v.ty, vals v.loc))))

/-- `dst` gets the value of `v`, or becomes empty when there is none. -/
def receive (dst : Loc) (v : Arg) (vals : Values α) : Values α :=
  Function.update (R.leave [v] vals) dst ((vals v.loc).map fun x => R.make .direct [(v.ty, some x)])

/-- What assigning an `x` of type `ty` leaves of a `T` with the value `t`. -/
def store (ty : ArgTy) (t x : α) : α :=
  match ty with
  | .inner => R.storeInner t x
  | ty => R.make .direct [(ty, some x)]

/-- An optional at `dst` is assigned the value in the `T` at `src`, which it gets when it is empty. -/
def receiveInner (dst src : Loc) (cat : Cat) (vals : Values α) : Values α :=
  Function.update (R.leave [⟨src, cat, .inner⟩] vals) dst
    ((vals src).map fun x => match vals dst with
      | some t => R.storeInner t x
      | none => x)

/-- The `T` at `dst` is assigned from `v`. -/
def assign (dst : Loc) (v : Arg) (vals : Values α) : Values α :=
  match v.ty with
  | .inner => R.receiveInner dst v.loc v.cat vals
  | _ => R.receive dst v vals

end Semantics

/-- The two places exchange what they hold. -/
def Values.exchange (x y : Loc) (vals : Values α) : Values α :=
  Function.update (Function.update vals x (vals y)) y (vals x)

def Values.clear (dst : Loc) (vals : Values α) : Values α := Function.update vals dst none

/-- A call that returns does what the semantics says. -/
structure Semantics.Regular (R : Semantics α) (E : Element α) (b : Behaviour α ε) : Prop where
  construct : ∀ trace values how dst args, (b trace (.construct how dst args) values).threw = none →
    (b trace (.construct how dst args) values).result = R.make how (args.map fun v => (v.ty, values v.loc)) ∧
    ∀ v ∈ args, ∀ x, values v.loc = some x → (b trace (.construct how dst args) values).after v.loc =
      if moves args v.loc then R.left x else x
  assign : ∀ trace values dst v t x, (b trace (.assign dst v) values).threw = none → values dst = some t →
    values v.loc = some x → Unaliased dst v → (b trace (.assign dst v) values).after dst = R.store v.ty t x ∧
    (v.loc ≠ dst → (b trace (.assign dst v) values).after v.loc = if v.cat = .rvalue then R.left x else x)
  swap : ∀ trace values x y v u, (b trace (.swap x y) values).threw = none → values x = some v →
    values y = some u → (b trace (.swap x y) values).after x = u ∧ (b trace (.swap x y) values).after y = v
  inner : ∀ hasValue x, E.hasValue = some hasValue → hasValue x = true →
    R.make .direct [(.inner, some x)] = x

/-- When `T` is an optional, the union implementation takes an `x` of type `T` that is not a non-const
lvalue for an optional to assign from. -/
def Impl.unboxes (E : Element α) (impl : Impl) (cat : Cat) : Option (α → Bool) :=
  match impl, E.hasValue, cat with
  | .union _, some hasValue, .constLvalue | .union _, some hasValue, .rvalue => some hasValue
  | _, _, _ => none

/-- `o = x` for an `x` of type `T`. -/
def Semantics.assignFromT (R : Semantics α) (E : Element α) (impl : Impl) (cat : Cat) (dst src : Loc)
    (vals : Values α) : Values α :=
  match impl.unboxes E cat with
  | some hasValue =>
    if (vals src).any hasValue then R.receiveInner dst src cat vals else Values.clear dst vals
  | none => R.receive dst ⟨src, cat, .self⟩ vals

/-- What an operation makes of the values. -/
def Op.effect (R : Semantics α) (E : Element α) (impl : Impl) (vals : Values α) : Op → Values α
  | .defaultCtor o | .noneCtor o | .assignNone o | .reset o | .destroy o => Values.clear (.contained (.named o)) vals
  | .valueCtor o src cat => R.receive (.contained (.named o)) ⟨src, cat, .self⟩ vals
  | .condCtor o cond src cat =>
    if cond then R.receive (.contained (.named o)) ⟨src, cat, .self⟩ vals else Values.clear (.contained (.named o)) vals
  | .inPlaceCtor o args | .emplace o args => R.construct .direct (.contained (.named o)) args vals
  | .inPlaceIfCtor o cond args =>
    if cond then R.construct .direct (.contained (.named o)) args vals else Values.clear (.contained (.named o)) vals
  | .copyCtor o rhs | .copyAssign o rhs =>
    R.receive (.contained (.named o)) ⟨.contained (.named rhs), .constLvalue, .self⟩ vals
  | .moveCtor o rhs | .moveAssign o rhs =>
    R.receive (.contained (.named o)) ⟨.contained (.named rhs), .rvalue, .self⟩ vals
  | .convCopyCtor o rhs | .convCopyAssign o rhs =>
    R.receive (.contained (.named o)) ⟨.contained (.named rhs), .constLvalue, .other⟩ vals
  | .convMoveCtor o rhs | .convMoveAssign o rhs =>
    R.receive (.contained (.named o)) ⟨.contained (.named rhs), .rvalue, .other⟩ vals
  | .factoryCtor o typed args | .assignFactory o typed args =>
    R.construct (factoryInit typed) (.contained (.named o)) args vals
  | .exprCtor o src cat | .assignFromU o src cat => R.receive (.contained (.named o)) ⟨src, cat, .other⟩ vals
  | .assignFromT this src cat => R.assignFromT E impl cat (.contained (.named this)) src vals
  | .resetValue this src => R.assignFromT E impl .constLvalue (.contained (.named this)) src vals
  | .swap x y => Values.exchange (.contained (.named x)) (.contained (.named y)) vals

/-- No optional is moved into itself, or assigned from a part of itself that would have to be
converted. -/
def Op.Unaliased : Op → Prop
  | .assignFromT this src cat => cat = .rvalue → src ≠ .contained (.named this)
  | .assignFromU this src _ => src ≠ .contained (.named this)
  | .moveAssign this rhs | .convCopyAssign this rhs | .convMoveAssign this rhs => rhs ≠ this
  | op => op.SelfFree

instance Op.decidableUnaliased (op : Op) : Decidable op.Unaliased :=
  match op with
  | .assignFromT _ _ cat =>
    if moved : cat = .rvalue then decidable_of_iff (¬ _ = _) ⟨fun apart _ => apart, fun free => free moved⟩
    else .isTrue fun same => (moved same).elim
  | .assignFromU .. | .moveAssign .. | .convCopyAssign .. | .convMoveAssign .. => inferInstanceAs (Decidable (¬ _))
  | .emplace this args => inferInstanceAs (Decidable (Op.emplace this args).SelfFree)
  | .assignFactory this typed args => inferInstanceAs (Decidable (Op.assignFactory this typed args).SelfFree)
  | .defaultCtor .. | .noneCtor .. | .valueCtor .. | .condCtor .. | .inPlaceCtor .. | .inPlaceIfCtor ..
  | .copyCtor .. | .moveCtor .. | .convCopyCtor .. | .convMoveCtor .. | .factoryCtor .. | .exprCtor ..
  | .assignNone .. | .copyAssign .. | .reset .. | .resetValue .. | .swap .. | .destroy .. => .isTrue trivial

end BoostOptional
