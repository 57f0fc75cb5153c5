import BoostOptional.Operation

/-!
What an optional is for, as the reference documents it: an object that holds a `T` or nothing.
Here an optional is an `Option`, so there is no flag that could disagree with the storage. The
actions below are the entries of the documented effects tables, and each faults where the
document does not say what happens.
-/

namespace BoostOptional.Spec
open Effect Prog Memory

/-- `content o` is `none` when there is no optional object `o`. -/
structure State (α : Type) where
  content : ObjId → Option (Option α)
  var : Nat → α
  scratch : Option α
  trace : List Call

variable {α ε : Type}

namespace State

def value (s : State α) : Loc → Option α
  | .contained o => (s.content o).join
  | .var x => some (s.var x)
  | .scratch => s.scratch

def setContent (s : State α) (o : ObjId) (c : Option (Option α)) : State α :=
  { s with content := fun p => if p = o then c else s.content p }

def update (s : State α) (operands : List Loc) (after : Loc → α) : State α :=
  { s with
    content := fun o => if .contained o ∈ operands then some (some (after (.contained o)))
      else s.content o
    var := fun x => if .var x ∈ operands then after (.var x) else s.var x
    scratch := if .scratch ∈ operands then some (after .scratch) else s.scratch }

def place (s : State α) (l : Loc) (v : α) : State α :=
  match l with
  | .contained o => s.setContent o (some (some v))
  | .var x => { s with var := fun y => if y = x then v else s.var y }
  | .scratch => { s with scratch := some v }

def vacate (s : State α) : Loc → State α
  | .contained o => s.setContent o (some none)
  | .var _ => s
  | .scratch => { s with scratch := none }

end State

instance : Memory (State α) α where
  value := State.value
  update := State.update
  place := State.place
  vacate := State.vacate
  trace := State.trace
  log s c := { s with trace := c :: s.trace }

abbrev Doc (α ε β : Type) : Type := Prog (State α) ε Fault β

def engaged (o : ObjId) : Doc α ε Bool := fun s =>
  match s.content o with
  | some c => .ok c.isSome s
  | none => .fault (.noObject o)

/-- A new optional object, without a value. -/
def appear (o : ObjId) : Doc α ε Unit := fun s =>
  match s.content o with
  | none => .ok () (s.setContent o (some none))
  | some _ => .fault (.objectExists o)

/-- An optional object without a value is gone. -/
def vanish (o : ObjId) : Doc α ε Unit := fun s =>
  match s.content o with
  | some none => .ok () (s.setContent o none)
  | _ => .fault (.noObject o)

variable (b : Behaviour α ε)

def create (how : Init) (o : ObjId) (args : List Arg) : Doc α ε Unit := fun s =>
  match s.content o with
  | some none => constructT b how (.contained o) args s
  | _ => .fault (.overLive (.contained o))

def assign (o : ObjId) (v : Arg) : Doc α ε Unit := assignT b (.contained o) v

/-- Destroys the contained value, if there is one. -/
def clear (o : ObjId) : Doc α ε Unit := fun s =>
  match s.content o with
  | none => .fault (.noObject o)
  | some none => .ok () s
  | some (some _) => destroyT (.contained o) s

/-- How an argument reaches the `T`: as it is, or through a parameter `T const&` or `T&&`. -/
inductive Passing where
  | forwarded | bound
  deriving DecidableEq, Repr

def pass (p : Passing) (v : Arg) (body : Arg → Doc α ε Unit) : Doc α ε Unit :=
  match p with
  | .forwarded => body v
  | .bound => bindParam b v body

def createFrom (p : Passing) (o : ObjId) (v : Arg) : Doc α ε Unit :=
  pass b p v fun v => create b .direct o [v]

def updateFrom (p : Passing) (o : ObjId) (v : Arg) : Doc α ε Unit := pass b p v (assign b o)

/-- A constructor: when its body throws there is no object. -/
def newOptional (o : ObjId) (body : Doc α ε Unit) : Doc α ε Unit := do
  appear o
  onThrow body (vanish o)

def destroy (o : ObjId) : Doc α ε Unit := do
  clear o
  vanish o

def newFrom (p : Passing) (o : ObjId) (rhsHasValue : Doc α ε Bool) (v : Arg) : Doc α ε Unit :=
  newOptional o do
    if ← rhsHasValue then createFrom b p o v else pure ()

/-- The documented table of assignment from an optional. -/
def assignFrom (p : Passing) (this : ObjId) (rhsHasValue : Doc α ε Bool) (v : Arg) : Doc α ε Unit := do
  if ← engaged this then
    if ← rhsHasValue then updateFrom b p this v else clear this
  else
    if ← rhsHasValue then createFrom b p this v else pure ()

/-- Assignment from a value: `T`'s assignment when there is a contained value, else `T`'s
constructor. -/
def assignValue (p q : Passing) (this : ObjId) (v : Arg) : Doc α ε Unit := do
  if ← engaged this then updateFrom b p this v else createFrom b q this v

/-- Assignment of a `T` to the union implementation's optional. -/
def unionAssignFromT (E : Element α) (this : ObjId) (v : Arg) : Doc α ε Unit :=
  if E.isScalar then do
    newOptional .temporary (create b .direct .temporary [{ v with cat := v.cat.bound }])
    bracket (assignFrom b .forwarded this (engaged .temporary) ⟨.contained .temporary, .rvalue, .self⟩)
      (destroy .temporary)
  else
    match E.hasValue, v.cat with
    | some _, .lvalue | none, _ => assignValue b .forwarded .forwarded this v
    | some hasValue, cat =>
      assignFrom b .forwarded this (innerHasValue hasValue v.loc) ⟨v.loc, cat, .inner⟩

def emplace (how : Init) (this : ObjId) (args : List Arg) : Doc α ε Unit := do
  clear this
  create b how this args

/-- The documented table of swap: the value moves over and its source is destroyed. -/
def transfer (dst src : ObjId) : Doc α ε Unit := do
  create b .direct dst [⟨.contained src, .rvalue, .self⟩]
  clear src

def swap (x y : ObjId) : Doc α ε Unit := do
  if ← engaged x then
    if ← engaged y then invokeSwap b (.contained x) (.contained y) else transfer b y x
  else
    if ← engaged y then transfer b x y else pure ()

/-- The customized swap: the side without a value gets a default-constructed `T` to swap with. -/
def swapDefault (x y : ObjId) : Doc α ε Unit := do
  if ← engaged x then
    if ← engaged y then invokeSwap b (.contained x) (.contained y)
    else do
      create b .direct y []
      invokeSwap b (.contained x) (.contained y)
      clear x
  else
    if ← engaged y then do
      create b .direct x []
      invokeSwap b (.contained x) (.contained y)
      clear y
    else pure ()

/-- Where the implementations differ within what is documented. -/
structure Style (α ε : Type) where
  passing : Passing
  assignFromT : ObjId → Arg → Doc α ε Unit
  swap : ObjId → ObjId → Doc α ε Unit

def style (E : Element α) : Impl → Style α ε
  | .union _ => ⟨.forwarded, unionAssignFromT b E, swap b⟩
  | .aligned useDefault =>
    ⟨.bound, assignValue b .bound .bound, if useDefault then swapDefault b else swap b⟩

def exec (S : Style α ε) : Op → Doc α ε Unit
  | .defaultCtor o | .noneCtor o => appear (.named o)
  | .valueCtor o src cat => newOptional (.named o) (createFrom b S.passing (.named o) ⟨src, cat, .self⟩)
  | .condCtor o cond src cat =>
    newOptional (.named o) (if cond then createFrom b .bound (.named o) ⟨src, cat, .self⟩ else pure ())
  | .inPlaceCtor o args => newOptional (.named o) (create b .direct (.named o) args)
  | .inPlaceIfCtor o cond args =>
    newOptional (.named o) (if cond then create b .direct (.named o) args else pure ())
  | .copyCtor o rhs =>
    newFrom b S.passing (.named o) (engaged (.named rhs)) ⟨.contained (.named rhs), .constLvalue, .self⟩
  | .moveCtor o rhs =>
    newFrom b S.passing (.named o) (engaged (.named rhs)) ⟨.contained (.named rhs), .rvalue, .self⟩
  | .convCopyCtor o rhs =>
    newFrom b S.passing (.named o) (engaged (.named rhs))
      ⟨.contained (.named rhs), .constLvalue, .other⟩
  | .convMoveCtor o rhs =>
    newFrom b S.passing (.named o) (engaged (.named rhs)) ⟨.contained (.named rhs), .rvalue, .other⟩
  | .factoryCtor o typed args => newOptional (.named o) (create b (factoryInit typed) (.named o) args)
  | .exprCtor o src cat => newOptional (.named o) (create b .direct (.named o) [⟨src, cat, .other⟩])
  | .assignNone this | .reset this => clear (.named this)
  | .assignFromT this src cat => S.assignFromT (.named this) ⟨src, cat, .self⟩
  | .assignFromU this src cat => assignValue b S.passing .forwarded (.named this) ⟨src, cat, .other⟩
  | .copyAssign this rhs =>
    assignFrom b S.passing (.named this) (engaged (.named rhs))
      ⟨.contained (.named rhs), .constLvalue, .self⟩
  | .moveAssign this rhs =>
    assignFrom b S.passing (.named this) (engaged (.named rhs))
      ⟨.contained (.named rhs), .rvalue, .self⟩
  | .convCopyAssign this rhs =>
    assignFrom b S.passing (.named this) (engaged (.named rhs))
      ⟨.contained (.named rhs), .constLvalue, .other⟩
  | .convMoveAssign this rhs =>
    assignFrom b S.passing (.named this) (engaged (.named rhs))
      ⟨.contained (.named rhs), .rvalue, .other⟩
  | .assignFactory this typed args => emplace b (factoryInit typed) (.named this) args
  | .emplace this args => emplace b .direct (.named this) args
  | .resetValue this src => S.assignFromT (.named this) ⟨src, .constLvalue, .self⟩
  | .swap x y => S.swap (.named x) (.named y)
  | .destroy o => destroy (.named o)

/-! ### Order of the tests in a constructor from an optional -/

theorem newFrom_eq (p : Passing) {o rhs : ObjId} (v : Arg) (different : rhs ≠ o) {s : State α}
    {c : Option α}
    (content : s.content rhs = some c) :
    newFrom b p o (engaged rhs) v s = newOptional o (if c.isSome then createFrom b p o v
        else pure ()) s := by
  simp only [newFrom, newOptional, bind_apply, andThen, appear]
  cases s.content o with
  | some _ => rfl
  | none =>
    simp only [onThrow, bind_apply, andThen, engaged, State.setContent, if_neg different, content]

theorem newFrom_fault (p : Passing) {o rhs : ObjId} (v : Arg) (different : rhs ≠ o) {s : State α}
    (content : s.content rhs = none) : ∃ f, newFrom b p o (engaged rhs) v s = .fault f := by
  simp only [newFrom, newOptional, bind_apply, andThen, appear]
  cases s.content o with
  | some _ => exact ⟨_, rfl⟩
  | none =>
    simp only [onThrow, bind_apply, andThen, engaged, State.setContent, if_neg different, content]
    exact ⟨_, rfl⟩

/-! ### Swap by what is engaged -/

theorem engaged_content {o : ObjId} {s : State α} {c : Option α} (content : s.content o = some c) :
    (engaged o : Doc α ε Bool) s = .ok c.isSome s := by
  rw [engaged, content]

theorem engaged_absent {o : ObjId} {s : State α} (absent : s.content o = none) :
    (engaged o : Doc α ε Bool) s = .fault (.noObject o) := by
  rw [engaged, absent]

theorem swap_eq {x y : ObjId} {s : State α} {hasX hasY : Bool}
    (hereX : (engaged x : Doc α ε Bool) s = .ok hasX s)
    (hereY : (engaged y : Doc α ε Bool) s = .ok hasY s) :
    swap b x y s =
      if hasX then
        if hasY then invokeSwap b (.contained x) (.contained y) s else transfer b y x s
      else
        if hasY then transfer b x y s else .ok () s := by
  rw [swap, bind_apply, andThen_ok hereX]
  cases hasX <;> exact (andThen_ok hereY _).trans (by cases hasY <;> rfl)

theorem swapDefault_eq {x y : ObjId} {s : State α} {hasX hasY : Bool}
    (hereX : (engaged x : Doc α ε Bool) s = .ok hasX s)
    (hereY : (engaged y : Doc α ε Bool) s = .ok hasY s) :
    swapDefault b x y s =
      if hasX then
        if hasY then invokeSwap b (.contained x) (.contained y) s
        else (do create b .direct y []; invokeSwap b (.contained x) (.contained y); clear x : Doc α ε Unit) s
      else
        if hasY then
          (do create b .direct x []; invokeSwap b (.contained x) (.contained y); clear y : Doc α ε Unit) s
        else .ok () s := by
  rw [swapDefault, bind_apply, andThen_ok hereX]
  cases hasX <;> exact (andThen_ok hereY _).trans (by cases hasY <;> rfl)

/-! ### Swapping needs two values -/

theorem value_contained {s : State α} {o : ObjId} (empty : ∀ v, s.content o ≠ some (some v)) :
    value s (.contained o) = none := by
  change (s.content o).join = none
  cases content : s.content o with
  | none => rfl
  | some c =>
    cases c with
    | none => rfl
    | some v => exact (empty v content).elim

theorem invokeSwap_fault {x y : ObjId} {s : State α} {β : Type} (next : Unit → Doc α ε β)
    (empty : (∀ v, s.content x ≠ some (some v)) ∨ ∀ v, s.content y ≠ some (some v)) :
    ∃ f, (invokeSwap b (.contained x) (.contained y) >>= next) s = .fault f := by
  refine ⟨.notLive (.swap (.contained x) (.contained y)), ?_⟩
  rw [bind_apply, andThen, invokeSwap_eq]
  rcases empty with empty | empty <;> simp [value_contained empty]

end BoostOptional.Spec
