import BoostOptional.Effect.Run

/-!
What an optional sees of its element type `T`: where values live, how they are passed, and the
calls of `T`'s operations. `T`'s operations are the user's code, so a `Behaviour` decides what each
call does: whether it throws, what it constructs, and what it leaves in its operands. It may answer
from everything that has been called before, which makes any schedule of exceptions a `Behaviour`.
-/

namespace BoostOptional
open Effect

/-- The category of an argument. A const rvalue is none of them. -/
inductive Cat where
  | constLvalue | lvalue | rvalue
  deriving DecidableEq, Repr

/-- An argument bound by the overload pair `T const&`, `T&&`. -/
def Cat.bound : Cat → Cat
  | .rvalue => .rvalue
  | _ => .constLvalue

/-- The type of an argument: `T` itself, some other type `U`, or the `U` held by a `T` that is
itself an `optional<U>`. To an `other` a `T const&` does not bind directly: it is not derived from
`T`, and does not convert to a `T&`. -/
inductive ArgTy where
  | self | other | inner
  deriving DecidableEq, Repr

/-- The optional objects of a program. `temporary` is the one a full-expression may create. -/
inductive ObjId where
  | named (n : Nat) | temporary
  deriving DecidableEq, Repr

/-- Where a value lives: inside an optional, in a variable of the user, or in the temporary that
an implicit conversion to `T` creates. -/
inductive Loc where
  | contained (o : ObjId) | var (x : Nat) | scratch
  deriving DecidableEq, Repr

structure Arg where
  loc : Loc
  cat : Cat
  ty : ArgTy
  deriving DecidableEq, Repr

/-- How a `T` is initialized: `T(args...)`, by an implicit conversion, or by a factory. -/
inductive Init where
  | direct | implicit | inPlaceFactory | typedInPlaceFactory
  deriving DecidableEq, Repr

inductive Call where
  | construct (how : Init) (dst : Loc) (args : List Arg)
  | assign (dst : Loc) (src : Arg)
  | swap (x y : Loc)
  | destroy (dst : Loc)
  deriving DecidableEq, Repr

def Call.operands : Call → List Loc
  | .construct _ _ args => args.map Arg.loc
  | .assign dst src => [dst, src.loc]
  | .swap x y => [x, y]
  | .destroy _ => []

/-- What a call did: the exception, the value constructed, and what each operand holds after it. -/
structure Reply (α ε : Type) where
  threw : Option ε
  result : α
  after : Loc → α

/-- `T`'s operations: the reply to a call, given the calls before it (latest first) and the
values of the objects that are live. -/
abbrev Behaviour (α ε : Type) : Type := List Call → Call → (Loc → Option α) → Reply α ε

/-- The traits of `T` that the code branches on. `hasValue` is present when `T` is itself an
optional. -/
structure Element (α : Type) where
  isScalar : Bool
  isTriviallyDestructible : Bool
  hasValue : Option (α → Bool)
  scalar_destructible : isScalar = true → isTriviallyDestructible = true
  scalar_flat : isScalar = true → hasValue = none

inductive Fault where
  | noObject (o : ObjId)
  | objectExists (o : ObjId)
  | notLive (call : Call)
  | overLive (dst : Loc)
  | assertion
  deriving DecidableEq, Repr

/-- What `T`'s operations see of a state. -/
class Memory (σ : Type) (α : outParam Type) where
  value : σ → Loc → Option α
  update : σ → List Loc → (Loc → α) → σ
  place : σ → Loc → α → σ
  vacate : σ → Loc → σ
  trace : σ → List Call
  log : σ → Call → σ

section Calls
open Prog Memory

variable {σ α ε : Type} [Memory σ α] (b : Behaviour α ε)

/-- A call of `T`'s operation `c`. Its operands must be live. -/
def userCall (c : Call) : Prog σ ε Fault (Reply α ε) := fun s =>
  if c.operands.all (fun l => (value s l).isSome) then
    let reply := b (trace s) c (value s)
    .ok reply (log (update s c.operands reply.after) c)
  else .fault (.notLive c)

def settle (reply : Reply α ε) : Prog σ ε Fault Unit :=
  match reply.threw with
  | some e => raise e
  | none => pure ()

def vacant (dst : Loc) : Prog σ ε Fault Unit := fun s =>
  if (value s dst).isSome then .fault (.overLive dst) else .ok () s

/-- `::new (dst) T(args...)`. When `T`'s constructor throws there is no object at `dst`. -/
def constructT (how : Init) (dst : Loc) (args : List Arg) : Prog σ ε Fault Unit := do
  vacant dst
  let reply ← userCall b (.construct how dst args)
  settle reply
  write fun s => place s dst reply.result

def assignT (dst : Loc) (src : Arg) : Prog σ ε Fault Unit := do
  let reply ← userCall b (.assign dst src)
  settle reply

/-- `boost::core::invoke_swap(x, y)`, which finds `T`'s own swap. -/
def invokeSwap (x y : Loc) : Prog σ ε Fault Unit := do
  let reply ← userCall b (.swap x y)
  settle reply

/-- `dst.T::~T()`, which does not throw. -/
def destroyT (dst : Loc) : Prog σ ε Fault Unit := fun s =>
  if (value s dst).isSome then .ok () (log (vacate s dst) (.destroy dst))
  else .fault (.notLive (.destroy dst))

theorem constructT_eq (how : Init) (dst : Loc) (args : List Arg) (s : σ) :
    constructT b how dst args s =
      if (value s dst).isSome then .fault (.overLive dst)
      else if (args.map Arg.loc).all (fun l => (value s l).isSome) then
        let reply := b (trace s) (.construct how dst args) (value s)
        let t := log (update s (args.map Arg.loc) reply.after) (.construct how dst args)
        match reply.threw with
        | some e => .thrown e t
        | none => .ok () (place t dst reply.result)
      else .fault (.notLive (.construct how dst args)) := by
  simp only [constructT, bind_apply, andThen, vacant, userCall, Call.operands]
  by_cases occupied : (value s dst).isSome = true
  · simp only [occupied, if_true]
  · by_cases live : ((args.map Arg.loc).all fun l => (value s l).isSome) = true
    · simp only [occupied, live, if_true, if_false, Bool.false_eq_true, settle]
      cases (b (trace s) (.construct how dst args) (value s)).threw <;> rfl
    · simp only [occupied, live, if_false, Bool.false_eq_true]

theorem assignT_eq (dst : Loc) (src : Arg) (s : σ) :
    assignT b dst src s =
      if (value s dst).isSome ∧ (value s src.loc).isSome then
        let reply := b (trace s) (.assign dst src) (value s)
        let t := log (update s [dst, src.loc] reply.after) (.assign dst src)
        match reply.threw with
        | some e => .thrown e t
        | none => .ok () t
      else .fault (.notLive (.assign dst src)) := by
  simp only [assignT, bind_apply, andThen, userCall, Call.operands, List.all_cons, List.all_nil,
    Bool.and_true, Bool.and_eq_true]
  by_cases live : (value s dst).isSome = true ∧ (value s src.loc).isSome = true
  · simp only [live, and_self, if_true, settle]
    cases (b (trace s) (.assign dst src) (value s)).threw <;> rfl
  · simp only [live, if_false]

theorem invokeSwap_eq (x y : Loc) (s : σ) :
    invokeSwap b x y s =
      if (value s x).isSome ∧ (value s y).isSome then
        let reply := b (trace s) (.swap x y) (value s)
        let t := log (update s [x, y] reply.after) (.swap x y)
        match reply.threw with
        | some e => .thrown e t
        | none => .ok () t
      else .fault (.notLive (.swap x y)) := by
  simp only [invokeSwap, bind_apply, andThen, userCall, Call.operands, List.all_cons, List.all_nil,
    Bool.and_true, Bool.and_eq_true]
  by_cases live : (value s x).isSome = true ∧ (value s y).isSome = true
  · simp only [live, and_self, if_true, settle]
    cases (b (trace s) (.swap x y) (value s)).threw <;> rfl
  · simp only [live, if_false]

section Called

variable {b} {s : σ}

theorem constructT_returns {how : Init} {dst : Loc} {args : List Arg} (empty : value s dst = none)
    (live : (args.map Arg.loc).all (fun l => (value s l).isSome) = true)
    (quiet : (b (trace s) (.construct how dst args) (value s)).threw = none) :
    constructT b how dst args s =
      .ok () (place (log (update s (args.map Arg.loc)
        (b (trace s) (.construct how dst args) (value s)).after)
        (.construct how dst args)) dst (b (trace s) (.construct how dst args) (value s)).result) := by
  rw [constructT_eq, if_neg (by simp [empty]), if_pos live]
  simp only [quiet]

theorem constructT_throws {how : Init} {dst : Loc} {args : List Arg} {e : ε}
    (empty : value s dst = none)
    (live : (args.map Arg.loc).all (fun l => (value s l).isSome) = true)
    (threw : (b (trace s) (.construct how dst args) (value s)).threw = some e) :
    constructT b how dst args s =
      .thrown e (log (update s (args.map Arg.loc)
        (b (trace s) (.construct how dst args) (value s)).after)
        (.construct how dst args)) := by
  rw [constructT_eq, if_neg (by simp [empty]), if_pos live]
  simp only [threw]

theorem assignT_returns {dst : Loc} {src : Arg} (dstLive : (value s dst).isSome = true)
    (live : (value s src.loc).isSome = true)
    (quiet : (b (trace s) (.assign dst src) (value s)).threw = none) :
    assignT b dst src s =
      .ok () (log (update s [dst, src.loc] (b (trace s) (.assign dst src) (value s)).after)
        (.assign dst src)) := by
  rw [assignT_eq, if_pos ⟨dstLive, live⟩]
  simp only [quiet]

theorem assignT_throws {dst : Loc} {src : Arg} {e : ε} (dstLive : (value s dst).isSome = true)
    (live : (value s src.loc).isSome = true)
    (threw : (b (trace s) (.assign dst src) (value s)).threw = some e) :
    assignT b dst src s =
      .thrown e (log (update s [dst, src.loc] (b (trace s) (.assign dst src) (value s)).after)
        (.assign dst src)) := by
  rw [assignT_eq, if_pos ⟨dstLive, live⟩]
  simp only [threw]

theorem invokeSwap_returns {x y : Loc} (liveX : (value s x).isSome = true)
    (liveY : (value s y).isSome = true)
    (quiet : (b (trace s) (.swap x y) (value s)).threw = none) :
    invokeSwap b x y s = .ok () (log (update s [x, y] (b (trace s) (.swap x y) (value s)).after)
        (.swap x y)) := by
  rw [invokeSwap_eq, if_pos ⟨liveX, liveY⟩]
  simp only [quiet]

theorem invokeSwap_throws {x y : Loc} {e : ε} (liveX : (value s x).isSome = true)
    (liveY : (value s y).isSome = true)
    (threw : (b (trace s) (.swap x y) (value s)).threw = some e) :
    invokeSwap b x y s = .thrown e (log (update s [x, y] (b (trace s) (.swap x y) (value s)).after)
        (.swap x y)) := by
  rw [invokeSwap_eq, if_pos ⟨liveX, liveY⟩]
  simp only [threw]

end Called

theorem destroyT_live {dst : Loc} {s : σ} (live : (value s dst).isSome = true) :
    (destroyT dst : Prog σ ε Fault Unit) s = .ok () (log (vacate s dst) (.destroy dst)) := by
  simp only [destroyT, live, if_true]

/-- Passes `v` to a parameter of type `T const&` or `T&&`. A `U` is converted first, and the
temporary lives until the call is over. -/
def bindParam (v : Arg) (body : Arg → Prog σ ε Fault Unit) : Prog σ ε Fault Unit :=
  match v.ty with
  | .self => body { v with cat := v.cat.bound }
  | _ => do
    constructT b .implicit .scratch [v]
    bracket (body ⟨.scratch, .rvalue, .self⟩) (destroyT .scratch)

theorem bindParam_self {v : Arg} (self : v.ty = .self) (body : Arg → Prog σ ε Fault Unit) :
    bindParam b v body = body { v with cat := v.cat.bound } := by
  unfold bindParam
  rw [self]

theorem bindParam_other {v : Arg} (other : v.ty ≠ .self) (body : Arg → Prog σ ε Fault Unit) :
    bindParam b v body = (do
      constructT b .implicit .scratch [v]
      bracket (body ⟨.scratch, .rvalue, .self⟩) (destroyT .scratch)) := by
  unfold bindParam
  split
  · rename_i self
    exact (other self).elim
  · rfl

def innerHasValue (hasValue : α → Bool) (l : Loc) : Prog σ ε Fault Bool := fun s =>
  match value s l with
  | some v => .ok (hasValue v) s
  | none => .fault (.notLive (.construct .direct l []))

end Calls

/-- The operations of a scalar type, which the language defines: they copy, and do not throw. -/
structure Scalar {α ε : Type} (b : Behaviour α ε) : Prop where
  construct : ∀ trace values dst v x, v.ty = .self → values v.loc = some x →
    (b trace (.construct .direct dst [v]) values).threw = none ∧
    (b trace (.construct .direct dst [v]) values).result = x ∧
    (b trace (.construct .direct dst [v]) values).after v.loc = x
  initial : ∀ trace values dst, (b trace (.construct .direct dst []) values).threw = none
  assign : ∀ trace values dst v x, v.ty = .self → values v.loc = some x →
    (b trace (.assign dst v) values).threw = none ∧
    (b trace (.assign dst v) values).after dst = x ∧ (b trace (.assign dst v) values).after v.loc = x
  swap : ∀ trace values x y v u, values x = some v → values y = some u →
    (b trace (.swap x y) values).threw = none ∧
    (b trace (.swap x y) values).after x = u ∧ (b trace (.swap x y) values).after y = v

/-! ### An element type whose operations copy -/

/-- Class types without an optional inside: the constructors and assignments are user code. -/
def Element.nontrivial (α : Type) : Element α :=
  ⟨false, false, none, nofun, fun _ => rfl⟩

/-- Copies and swaps integers. `fails` is the schedule of exceptions. -/
def intLike {ε : Type} (fails : List Call → Call → Option ε) : Behaviour Int ε :=
  fun trace call values =>
  let held : Loc → Int := fun l => (values l).getD 0
  match fails trace call with
  | some e => ⟨some e, 0, held⟩
  | none =>
    match call with
    | .construct _ _ args => ⟨none, (args.head?.map fun v => held v.loc).getD 0, held⟩
    | .assign dst src => ⟨none, 0, fun l => if l = dst then held src.loc else held l⟩
    | .swap x y => ⟨none, 0, fun l => if l = x then held y else if l = y then held x else held l⟩
    | .destroy _ => ⟨none, 0, held⟩

end BoostOptional
