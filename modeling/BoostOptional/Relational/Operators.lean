import BoostOptional.Relational.WeakOrder

/-!
The relational operators (`detail/optional_relops.hpp`) of `optional<T>` with another `optional<T>`,
a `T` and `none`, over the two operators of `T` that they use.
-/

namespace BoostOptional.Relational

variable {T : Type}

/-- `T`'s `operator==` and `operator<`. Nothing is asked of them. -/
structure Comparison (T : Type) where
  eq : T → T → Bool
  lt : T → T → Bool

/-- `none_t` -/
inductive NoneT where
  | none
  deriving DecidableEq, Repr

variable (t : Comparison T)

/-! ### optional<T> vs optional<T> cases -/

namespace OptOpt

def eq (x y : Option T) : Bool :=
  match x, y with
  | some a, some b => t.eq a b
  | x, y => x.isSome == y.isSome

def lt (x y : Option T) : Bool :=
  match y with
  | none => false
  | some b =>
    match x with
    | none => true
    | some a => t.lt a b

def ne (x y : Option T) : Bool := !eq t x y

def gt (x y : Option T) : Bool := lt t y x

def le (x y : Option T) : Bool := !lt t y x

def ge (x y : Option T) : Bool := !lt t x y

end OptOpt

/-! ### optional<T> vs T cases, and T vs optional<T> cases -/

def OptVal.eq (x : Option T) (y : T) : Bool :=
  match x with
  | some a => t.eq a y
  | none => false

def OptVal.lt (x : Option T) (y : T) : Bool :=
  match x with
  | some a => t.lt a y
  | none => true

def ValOpt.eq (x : T) (y : Option T) : Bool :=
  match y with
  | some b => t.eq x b
  | none => false

def ValOpt.lt (x : T) (y : Option T) : Bool :=
  match y with
  | some b => t.lt x b
  | none => false

namespace OptVal

def ne (x : Option T) (y : T) : Bool := !eq t x y

def gt (x : Option T) (y : T) : Bool := ValOpt.lt t y x

def le (x : Option T) (y : T) : Bool := !ValOpt.lt t y x

def ge (x : Option T) (y : T) : Bool := !lt t x y

end OptVal

namespace ValOpt

def ne (x : T) (y : Option T) : Bool := !eq t x y

def gt (x : T) (y : Option T) : Bool := OptVal.lt t y x

def le (x : T) (y : Option T) : Bool := !OptVal.lt t y x

def ge (x : T) (y : Option T) : Bool := !lt t x y

end ValOpt

/-! ### optional<T> vs none cases, and none vs optional<T> cases -/

def OptNone.eq (x : Option T) (_ : NoneT) : Bool := !x.isSome

def OptNone.lt (_ : Option T) (_ : NoneT) : Bool := false

def OptNone.ne (x : Option T) (_ : NoneT) : Bool := x.isSome

def NoneOpt.eq (_ : NoneT) (y : Option T) : Bool := !y.isSome

def NoneOpt.lt (_ : NoneT) (y : Option T) : Bool := y.isSome

def NoneOpt.ne (_ : NoneT) (y : Option T) : Bool := y.isSome

namespace OptNone

def gt (x : Option T) (y : NoneT) : Bool := NoneOpt.lt y x

def le (x : Option T) (y : NoneT) : Bool := !NoneOpt.lt y x

def ge (x : Option T) (y : NoneT) : Bool := !lt x y

end OptNone

namespace NoneOpt

def gt (x : NoneT) (y : Option T) : Bool := OptNone.lt y x

def le (x : NoneT) (y : Option T) : Bool := !OptNone.lt y x

def ge (x : NoneT) (y : Option T) : Bool := !lt x y

end NoneOpt

/-! ### The overload set -/

inductive Operator where
  | eq | ne | lt | gt | le | ge
  deriving DecidableEq, Repr

inductive Operand (T : Type) where
  | opt (x : Option T)
  | val (v : T)
  | none (n : NoneT)
  deriving DecidableEq, Repr

def Operand.toOptional : Operand T → Option T
  | .opt x => x
  | .val v => some v
  | .none _ => Option.none

def Operand.isOptional : Operand T → Bool
  | .opt _ => true
  | _ => false

def lifted : Operator → Option T → Option T → Bool
  | .eq => OptOpt.eq t
  | .ne => OptOpt.ne t
  | .lt => OptOpt.lt t
  | .gt => OptOpt.gt t
  | .le => OptOpt.le t
  | .ge => OptOpt.ge t

/-- What `x op y` is, `none` where `optional_relops.hpp` has no overload for the operands. -/
def apply (op : Operator) : Operand T → Operand T → Option Bool
  | .opt x, .opt y => some (lifted t op x y)
  | .opt x, .val y => some <|
    match op with
    | .eq => OptVal.eq t x y
    | .ne => OptVal.ne t x y
    | .lt => OptVal.lt t x y
    | .gt => OptVal.gt t x y
    | .le => OptVal.le t x y
    | .ge => OptVal.ge t x y
  | .val x, .opt y => some <|
    match op with
    | .eq => ValOpt.eq t x y
    | .ne => ValOpt.ne t x y
    | .lt => ValOpt.lt t x y
    | .gt => ValOpt.gt t x y
    | .le => ValOpt.le t x y
    | .ge => ValOpt.ge t x y
  | .opt x, .none y => some <|
    match op with
    | .eq => OptNone.eq x y
    | .ne => OptNone.ne x y
    | .lt => OptNone.lt x y
    | .gt => OptNone.gt x y
    | .le => OptNone.le x y
    | .ge => OptNone.ge x y
  | .none x, .opt y => some <|
    match op with
    | .eq => NoneOpt.eq x y
    | .ne => NoneOpt.ne x y
    | .lt => NoneOpt.lt x y
    | .gt => NoneOpt.gt x y
    | .le => NoneOpt.le x y
    | .ge => NoneOpt.ge x y
  | _, _ => Option.none

/-! ### One relation -/

section Conversion

variable {t}

theorem optVal_lifted (op : Operator) (x : Option T) (y : T) :
    apply t op (.opt x) (.val y) = some (lifted t op x (some y)) := by
  cases op <;> cases x <;> rfl

theorem valOpt_lifted (op : Operator) (x : T) (y : Option T) :
    apply t op (.val x) (.opt y) = some (lifted t op (some x) y) := by
  cases op <;> cases y <;> rfl

theorem optNone_lifted (op : Operator) (x : Option T) (n : NoneT) :
    apply t op (.opt x) (.none n) = some (lifted t op x none) := by
  cases op <;> cases x <;> rfl

theorem noneOpt_lifted (op : Operator) (n : NoneT) (y : Option T) :
    apply t op (.none n) (.opt y) = some (lifted t op none y) := by
  cases op <;> cases y <;> rfl

/-- There is an overload when one of the operands is an optional. -/
theorem apply_lifted (op : Operator) {x y : Operand T}
    (optional : x.isOptional = true ∨ y.isOptional = true) :
    apply t op x y = some (lifted t op x.toOptional y.toOptional) := by
  cases x with
  | opt x =>
    cases y with
    | opt y => rfl
    | val v => exact optVal_lifted op x v
    | none n => exact optNone_lifted op x n
  | val v =>
    cases y with
    | opt y => exact valOpt_lifted op v y
    | val | none => rcases optional with no | no <;> cases no
  | none n =>
    cases y with
    | opt y => exact noneOpt_lifted op n y
    | val | none => rcases optional with no | no <;> cases no

end Conversion

end BoostOptional.Relational
