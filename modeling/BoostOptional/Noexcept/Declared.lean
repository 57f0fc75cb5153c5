import BoostOptional.Direct

/-!
The functions that the implementations declare `noexcept`, what the specification of each evaluates
to, and which of `T`'s operations are `noexcept` themselves.
-/

namespace BoostOptional
open Effect Prog

/-- Which of `T`'s operations do not throw. `swap` is the swap that `invoke_swap` finds for two `T&`. -/
structure Nothrow where
  defaultCtor : Bool
  copyCtor : Bool
  moveCtor : Bool
  copyAssign : Bool
  moveAssign : Bool
  swap : Bool
  deriving DecidableEq, Repr

def Nothrow.covers (n : Nothrow) : Call → Bool
  | .construct .direct _ [] => n.defaultCtor
  | .construct .direct _ [⟨_, .constLvalue, .self⟩] => n.copyCtor
  | .construct .direct _ [⟨_, .rvalue, .self⟩] => n.moveCtor
  | .assign _ ⟨_, .constLvalue, .self⟩ => n.copyAssign
  | .assign _ ⟨_, .rvalue, .self⟩ => n.moveAssign
  | .swap _ _ => n.swap
  | .destroy _ => true
  | _ => false

variable {α ε : Type}

/-- `T`'s operations keep to their own exception specifications. -/
def Respects (n : Nothrow) (b : Behaviour α ε) : Prop :=
  ∀ trace c values, n.covers c = true → (b trace c values).threw = none

/-! ### detail/union_optional.hpp -/

namespace Union

/-- `operator*() &` and `operator*() const&`, which are `get()` -/
def deref (o : ObjId) : Code α ε Loc := do
  if ← isInitialized o then pure (.contained o) else fail .assertion

/-- `operator optional<T&>() &` and `operator optional<const T&>() const&`: the address that the new
reference is bound to. -/
def convertToReference (o : ObjId) : Code α ε (Option Loc) := do
  if ← isInitialized o then do
    let l ← deref o
    pure (some l)
  else pure none

inductive Declared where
  | defaultCtor | noneCtor | moveCtor | moveAssign | assignNone | reset | memberSwap | swap | convertToReference
  | convertToConstReference | destructor
  deriving DecidableEq, Repr

/-- `noexcept(*rhs)`: neither `operator*() &` nor the `get()` that it returns is declared `noexcept`. -/
def derefNoexcept : Bool := false

/-- Both swaps ask about an `invoke_swap(*lhs, *rhs)`, operands included, which is false for every `T`. -/
def Declared.noexcept (n : Nothrow) : Declared → Bool
  | .moveCtor => n.moveCtor
  | .moveAssign => n.moveAssign && n.moveCtor
  | .memberSwap | .swap => n.moveCtor && (derefNoexcept && n.swap)
  | _ => true

def Declared.call (E : Element α) (b : Behaviour α ε) (constexprCopy : Bool) (this rhs : ObjId) :
    Declared → Code α ε Unit
  | .defaultCtor | .noneCtor => Union.defaultCtor this
  | .moveCtor => Union.moveCtor E b constexprCopy this rhs
  | .moveAssign => Union.moveAssign E b this rhs
  | .assignNone => Union.assignNone E this
  | .reset => Union.reset E this
  -- `swap(lhs, rhs)` is `lhs.swap(rhs)`
  | .memberSwap | .swap => Union.swap E b this rhs
  | .convertToReference | .convertToConstReference => do
    let _ ← Union.convertToReference this
    pure ()
  | .destructor => Union.destructor E this

end Union

/-! ### optional.hpp -/

namespace Legacy

inductive Declared where
  | defaultCtor | noneCtor | moveCtor | moveAssign | assignNone | reset | resetValue | memberSwap | destructor
  deriving DecidableEq, Repr

end Legacy

namespace Aligned

/-- `optional`'s own specifications and those of `optional_base`, which its defaulted moves have. -/
def noexcept (n : Nothrow) : Legacy.Declared → Bool
  | .moveCtor => n.moveCtor
  | .moveAssign | .memberSwap => n.moveCtor && n.moveAssign
  | .resetValue => false
  | _ => true

def call (b : Behaviour α ε) (useDefault : Bool) (this rhs : ObjId) (src : Loc) :
    Legacy.Declared → Code α ε Unit
  | .defaultCtor | .noneCtor => Aligned.defaultCtor this
  | .moveCtor => Aligned.moveCtor b this rhs
  | .moveAssign => Aligned.moveAssign b this rhs
  | .assignNone => Aligned.assignNone this
  | .reset => Aligned.reset this
  | .resetValue => Aligned.resetValue b this ⟨src, .constLvalue, .self⟩
  | .memberSwap => Aligned.swap b useDefault this rhs
  | .destructor => Aligned.destructor this

end Aligned

namespace Direct

/-- The implicit moves of `tc_optional_base` throw what those of `T` throw. -/
def noexcept (n : Nothrow) : Legacy.Declared → Bool
  | .moveCtor => n.moveCtor
  | .moveAssign => n.moveAssign
  | .memberSwap => n.moveCtor && n.moveAssign
  | _ => true

def call (b : Behaviour α ε) (useDefault : Bool) (this rhs : ObjId) (src : Loc) :
    Legacy.Declared → Code α ε Unit
  | .defaultCtor | .noneCtor => Direct.defaultCtor b this
  | .moveCtor => Direct.moveCtor b this rhs
  | .moveAssign => Direct.moveAssign b this rhs
  | .assignNone => Direct.assignNone this
  | .reset => Direct.reset this
  | .resetValue => Direct.resetValue b this ⟨src, .constLvalue, .self⟩
  | .memberSwap => Direct.swap b useDefault this rhs
  | .destructor => Direct.destructor this

end Direct

end BoostOptional
