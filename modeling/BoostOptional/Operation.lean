import BoostOptional.Union
import BoostOptional.Aligned

/-!
The operations of an optional as a caller issues them, and what each implementation runs for them.
-/

namespace BoostOptional
open Effect

inductive Op where
  | defaultCtor (o : Nat)
  | noneCtor (o : Nat)
  | valueCtor (o : Nat) (src : Loc) (cat : Cat)
  | condCtor (o : Nat) (cond : Bool) (src : Loc) (cat : Cat)
  | inPlaceCtor (o : Nat) (args : List Arg)
  | inPlaceIfCtor (o : Nat) (cond : Bool) (args : List Arg)
  | copyCtor (o rhs : Nat)
  | moveCtor (o rhs : Nat)
  | convCopyCtor (o rhs : Nat)
  | convMoveCtor (o rhs : Nat)
  | factoryCtor (o : Nat) (typed : Bool) (args : List Arg)
  | exprCtor (o : Nat) (src : Loc) (cat : Cat)
  | assignNone (this : Nat)
  | assignFromT (this : Nat) (src : Loc) (cat : Cat)
  | assignFromU (this : Nat) (src : Loc) (cat : Cat)
  | copyAssign (this rhs : Nat)
  | moveAssign (this rhs : Nat)
  | convCopyAssign (this rhs : Nat)
  | convMoveAssign (this rhs : Nat)
  | assignFactory (this : Nat) (typed : Bool) (args : List Arg)
  | emplace (this : Nat) (args : List Arg)
  | reset (this : Nat)
  | resetValue (this : Nat) (src : Loc)
  | swap (x y : Nat)
  | destroy (o : Nat)
  deriving DecidableEq, Repr

namespace Op

def creates : Op → List ObjId
  | defaultCtor o | noneCtor o | valueCtor o _ _ | condCtor o _ _ _ | inPlaceCtor o _
  | inPlaceIfCtor o _ _ | copyCtor o _ | moveCtor o _ | convCopyCtor o _ | convMoveCtor o _
  | factoryCtor o _ _ | exprCtor o _ _ => [.named o]
  | _ => []

def objects : Op → List ObjId
  | copyCtor _ rhs | moveCtor _ rhs | convCopyCtor _ rhs | convMoveCtor _ rhs => [.named rhs]
  | assignNone this | assignFromT this _ _ | assignFromU this _ _ | assignFactory this _ _
  | emplace this _ | reset this | resetValue this _ => [.named this]
  | copyAssign this rhs | moveAssign this rhs | convCopyAssign this rhs | convMoveAssign this rhs =>
    [.named this, .named rhs]
  | swap x y => [.named x, .named y]
  | destroy o => [.named o]
  | _ => []

def sources : Op → List Loc
  | valueCtor _ src _ | condCtor _ _ src _ | exprCtor _ src _ | assignFromT _ src _
  | assignFromU _ src _ | resetValue _ src => [src]
  | inPlaceCtor _ args | inPlaceIfCtor _ _ args | factoryCtor _ _ args | assignFactory _ _ args
  | emplace _ args => args.map Arg.loc
  | _ => []

end Op

def factoryInit (typed : Bool) : Init := if typed then .typedInPlaceFactory else .inPlaceFactory

variable {α ε : Type}

/-- A call the language allows: a new object for a constructor, existing operands, and arguments
that refer to live objects. -/
def Op.Legal (op : Op) (w : World α) : Prop :=
  (∀ o ∈ op.creates, w.flag o = none) ∧ (∀ o ∈ op.objects, w.flag o ≠ none) ∧
    ∀ l ∈ op.sources, (w.value l).isSome = true

instance (op : Op) (w : World α) : Decidable (op.Legal w) :=
  inferInstanceAs (Decidable (_ ∧ _ ∧ _))

/-- No argument of an `emplace` or of a factory refers to the value that the call replaces. -/
def Op.SelfFree : Op → Prop
  | .emplace this args | .assignFactory this _ args => ∀ v ∈ args, v.loc ≠ .contained (.named this)
  | _ => True

instance (op : Op) : Decidable op.SelfFree := by
  cases op <;> unfold Op.SelfFree <;> infer_instance

def Union.exec (E : Element α) (b : Behaviour α ε) (constexprCopy : Bool) : Op → Code α ε Unit
  | .defaultCtor o | .noneCtor o => defaultCtor (.named o)
  | .valueCtor o src cat => valueCtor b (.named o) ⟨src, cat, .self⟩
  | .condCtor o cond src cat => condCtor E b constexprCopy (.named o) cond ⟨src, cat, .self⟩
  | .inPlaceCtor o args => inPlaceCtor b (.named o) args
  | .inPlaceIfCtor o cond args => inPlaceIfCtor E b constexprCopy (.named o) cond args
  | .copyCtor o rhs => copyCtor E b constexprCopy (.named o) (.named rhs)
  | .moveCtor o rhs => moveCtor E b constexprCopy (.named o) (.named rhs)
  | .convCopyCtor o rhs => convCopyCtor E b constexprCopy (.named o) (.named rhs)
  | .convMoveCtor o rhs => convMoveCtor E b constexprCopy (.named o) (.named rhs)
  | .factoryCtor o typed args => factoryCtor E b (.named o) (factoryInit typed) args
  | .exprCtor o src cat => exprCtor b (.named o) ⟨src, cat, .other⟩
  | .assignNone this => assignNone E (.named this)
  | .assignFromT this src cat => assignFromT E b (.named this) ⟨src, cat, .self⟩
  | .assignFromU this src cat => assignForward b (.named this) ⟨src, cat, .other⟩
  | .copyAssign this rhs => copyAssign E b (.named this) (.named rhs)
  | .moveAssign this rhs => moveAssign E b (.named this) (.named rhs)
  | .convCopyAssign this rhs => convCopyAssign E b (.named this) (.named rhs)
  | .convMoveAssign this rhs => convMoveAssign E b (.named this) (.named rhs)
  | .assignFactory this typed args => assignFactory E b (.named this) (factoryInit typed) args
  | .emplace this args => emplace E b (.named this) args
  | .reset this => reset E (.named this)
  | .resetValue this src => resetValue E b (.named this) ⟨src, .constLvalue, .self⟩
  | .swap x y => swap E b (.named x) (.named y)
  | .destroy o => destructor E (.named o)

def Aligned.exec (b : Behaviour α ε) (useDefault : Bool) : Op → Code α ε Unit
  | .defaultCtor o | .noneCtor o => defaultCtor (.named o)
  | .valueCtor o src cat => valueCtor b (.named o) ⟨src, cat, .self⟩
  | .condCtor o cond src cat => condCtor b (.named o) cond ⟨src, cat, .self⟩
  | .inPlaceCtor o args => inPlaceCtor b (.named o) args
  | .inPlaceIfCtor o cond args => inPlaceIfCtor b (.named o) cond args
  | .copyCtor o rhs => copyCtor b (.named o) (.named rhs)
  | .moveCtor o rhs => moveCtor b (.named o) (.named rhs)
  | .convCopyCtor o rhs => convCopyCtor b (.named o) (.named rhs)
  | .convMoveCtor o rhs => convMoveCtor b (.named o) (.named rhs)
  | .factoryCtor o typed args => factoryCtor b (.named o) (factoryInit typed) args
  | .exprCtor o src cat => exprCtor b (.named o) ⟨src, cat, .other⟩
  | .assignNone this => assignNone (.named this)
  | .assignFromT this src cat => assignFromT b (.named this) ⟨src, cat, .self⟩
  | .assignFromU this src cat => assignFromU b (.named this) ⟨src, cat, .other⟩
  | .copyAssign this rhs => copyAssign b (.named this) (.named rhs)
  | .moveAssign this rhs => moveAssign b (.named this) (.named rhs)
  | .convCopyAssign this rhs => convCopyAssign b (.named this) (.named rhs)
  | .convMoveAssign this rhs => convMoveAssign b (.named this) (.named rhs)
  | .assignFactory this typed args => assignFactory b (.named this) (factoryInit typed) args
  | .emplace this args => emplace b (.named this) args
  | .reset this => reset (.named this)
  | .resetValue this src => resetValue b (.named this) ⟨src, .constLvalue, .self⟩
  | .swap x y => swap b useDefault (.named x) (.named y)
  | .destroy o => destructor (.named o)

/-- The implementations whose storage ends and begins the life of the `T`. -/
inductive Impl where
  | union (constexprCopy : Bool)
  | aligned (useDefault : Bool)
  deriving DecidableEq, Repr

def Impl.exec (E : Element α) (b : Behaviour α ε) : Impl → Op → Code α ε Unit
  | .union constexprCopy => Union.exec E b constexprCopy
  | .aligned useDefault => Aligned.exec b useDefault

def Impl.system (E : Element α) (b : Behaviour α ε) (impl : Impl) : System (World α) ε Fault Op where
  exec := impl.exec E b
  legal := Op.Legal

instance (E : Element α) (b : Behaviour α ε) (impl : Impl) (op : Op) (w : World α) :
    Decidable ((impl.system E b).legal op w) :=
  inferInstanceAs (Decidable (op.Legal w))

end BoostOptional
