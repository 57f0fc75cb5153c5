import BoostOptional.Spec

/-!
The documented operations on two states whose traces differ at most in how a `T` was passed, as a
`T&` or as a `T const&`. When `T` has no constructor or assignment of its own for a `T&`, the
operations take such states to such states, whichever way they pass a `T` themselves.
-/

namespace BoostOptional
open Effect Prog Memory

variable {α ε β : Type}

def Arg.bound (v : Arg) : Arg := if v.ty = .self then { v with cat := v.cat.bound } else v

/-- The constructor and the assignment that a `T` selects when `T` does not tell `T&` from `T
const&`. -/
def Call.bound : Call → Call
  | .construct .direct dst [v] => .construct .direct dst [v.bound]
  | .assign dst v => .assign dst v.bound
  | call => call

/-- `T` has no constructor and no assignment of its own for a `T&`. -/
def CopiesLvalues (b : Behaviour α ε) : Prop :=
  ∀ trace call values, b (trace.map Call.bound) call.bound values = b trace call values

/-- The operands are a `T`, optionals of `T`, or arguments for a constructor of `T`. -/
def Op.OfT : Op → Prop
  | .convCopyCtor .. | .convMoveCtor .. | .exprCtor .. | .assignFromU .. | .convCopyAssign ..
  | .convMoveAssign .. => False
  | _ => True

theorem Arg.bound_loc (v : Arg) : v.bound.loc = v.loc := by
  unfold Arg.bound
  split <;> rfl

theorem Arg.bound_const {v : Arg} (self : v.ty = .self) : Arg.bound { v with cat := v.cat.bound } = v.bound := by
  obtain ⟨loc, cat, ty⟩ := v
  cases self
  cases cat <;> rfl

theorem Call.bound_operands (call : Call) : call.bound.operands = call.operands := by
  unfold Call.bound
  split <;> simp [Call.operands, Arg.bound_loc]

namespace Spec

def State.seen (s : State α) : State α := { s with trace := s.trace.map Call.bound }

def Renamed (s t : State α) : Prop := s.seen = t.seen

/-- `c'` does what `c` does, on states that are the same up to renamed calls. -/
abbrev Follows (c c' : Doc α ε β) : Prop := Refines Renamed c c'

section Renamed

variable {s t : State α}

theorem Renamed.content (renamed : Renamed s t) : s.content = t.content := by
  have seen : s.seen.content = t.seen.content := congrArg State.content renamed
  exact seen

theorem Renamed.scratch (renamed : Renamed s t) : s.scratch = t.scratch := by
  have seen : s.seen.scratch = t.seen.scratch := congrArg State.scratch renamed
  exact seen

theorem Renamed.trace (renamed : Renamed s t) : s.trace.map Call.bound = t.trace.map Call.bound := by
  have seen : s.seen.trace = t.seen.trace := congrArg State.trace renamed
  exact seen

theorem Renamed.symm (renamed : Renamed s t) : Renamed t s := Eq.symm renamed

theorem Renamed.value_eq (renamed : Renamed s t) : value s = value t := by
  have seen : ∀ s : State α, value s.seen = value s := by
    intro s
    funext l
    cases l <;> rfl
  rw [← seen s, ← seen t]
  exact congrArg value renamed

theorem Renamed.setContent (renamed : Renamed s t) (o : ObjId) (c : Option (Option α)) :
    Renamed (s.setContent o c) (t.setContent o c) :=
  congrArg (State.setContent · o c) renamed

theorem Renamed.place (renamed : Renamed s t) (l : Loc) (v : α) :
    Renamed (place s l v) (place t l v) := by
  have seen : ∀ s : State α, (Memory.place s l v).seen = Memory.place s.seen l v := by
    intro s
    cases l <;> rfl
  unfold Renamed
  rw [seen, seen]
  exact congrArg (Memory.place · l v) renamed

theorem Renamed.vacate (renamed : Renamed s t) (l : Loc) : Renamed (vacate s l) (vacate t l) := by
  have seen : ∀ s : State α, (Memory.vacate s l).seen = Memory.vacate s.seen l := by
    intro s
    cases l <;> rfl
  unfold Renamed
  rw [seen, seen]
  exact congrArg (Memory.vacate · l) renamed

theorem Renamed.called (renamed : Renamed s t) {call call' : Call} (same : call.bound = call'.bound)
    (operands : List Loc) (after : Loc → α) :
    Renamed (log (update s operands after) call) (log (update t operands after) call') := by
  have updated : Memory.update s.seen operands after = Memory.update t.seen operands after :=
    congrArg (Memory.update · operands after) renamed
  change Memory.log (Memory.update s.seen operands after) call.bound =
    Memory.log (Memory.update t.seen operands after) call'.bound
  rw [updated, same]

end Renamed

/-! ### T's operations -/

variable {b : Behaviour α ε} (copies : CopiesLvalues b)

include copies in
theorem userCall_follows {call call' : Call} (same : call.bound = call'.bound) :
    Follows (userCall b call) (userCall b call') := by
  intro s t renamed
  have operands : call.operands = call'.operands := by
    rw [← call.bound_operands, same, call'.bound_operands]
  have reply : b (trace s) call (value s) = b (trace t) call' (value t) :=
    calc b (trace s) call (value s)
      _ = b ((trace s).map Call.bound) call.bound (value s) := (copies _ _ _).symm
      _ = b ((trace t).map Call.bound) call'.bound (value t) := by
        have traces : (trace s).map Call.bound = (trace t).map Call.bound := renamed.trace
        rw [traces, same, renamed.value_eq]
      _ = b (trace t) call' (value t) := copies _ _ _
  simp only [userCall, operands, reply]
  rw [renamed.value_eq]
  split
  · exact ⟨rfl, renamed.called same _ _⟩
  · exact match_fault _ _

theorem settle_follows (reply : Reply α ε) : Follows (α := α) (settle reply) (settle reply) := by
  intro s t renamed
  unfold settle
  cases reply.threw <;> exact ⟨rfl, renamed⟩

theorem vacant_follows (dst : Loc) : Follows (ε := ε) (vacant dst : Doc α ε Unit) (vacant dst) := by
  intro s t renamed
  simp only [vacant, renamed.value_eq]
  split
  · exact match_fault _ _
  · exact ⟨rfl, renamed⟩

section Calls

include copies

theorem constructT_follows {how : Init} {dst : Loc} {args args' : List Arg}
    (same : (Call.construct how dst args).bound = (Call.construct how dst args').bound) :
    Follows (constructT b how dst args) (constructT b how dst args') := by
  apply refines_bind (vacant_follows dst)
  intro _
  apply refines_bind (userCall_follows copies same)
  intro reply
  apply refines_bind (settle_follows reply)
  intro _ s t renamed
  exact ⟨rfl, renamed.place dst reply.result⟩

theorem assignT_follows (dst : Loc) {v v' : Arg} (same : v.bound = v'.bound) :
    Follows (assignT b dst v) (assignT b dst v') :=
  refines_bind (userCall_follows copies (congrArg (Call.assign dst) same)) settle_follows

theorem invokeSwap_follows (x y : Loc) : Follows (invokeSwap b x y) (invokeSwap b x y) :=
  refines_bind (userCall_follows copies rfl) settle_follows

end Calls

theorem destroyT_follows (dst : Loc) : Follows (destroyT dst : Doc α ε Unit) (destroyT dst) := by
  intro s t renamed
  simp only [destroyT, renamed.value_eq]
  split
  · refine ⟨rfl, ?_⟩
    have vacated := renamed.vacate dst
    change Memory.log (State.seen _) _ = Memory.log (State.seen _) _
    rw [show State.seen _ = State.seen _ from vacated]
  · exact match_fault _ _

/-! ### The actions of the document -/

theorem engaged_follows (o : ObjId) : Follows (engaged o : Doc α ε Bool) (engaged o) := by
  intro s t renamed
  simp only [engaged, renamed.content]
  cases t.content o with
  | none => exact match_fault _ _
  | some c => exact ⟨rfl, renamed⟩

theorem appear_follows (o : ObjId) : Follows (appear o : Doc α ε Unit) (appear o) := by
  intro s t renamed
  simp only [appear, renamed.content]
  cases t.content o with
  | none => exact ⟨rfl, renamed.setContent o _⟩
  | some c => exact match_fault _ _

theorem vanish_follows (o : ObjId) : Follows (vanish o : Doc α ε Unit) (vanish o) := by
  intro s t renamed
  simp only [vanish, renamed.content]
  split
  · exact ⟨rfl, renamed.setContent o _⟩
  · exact match_fault _ _

theorem clear_follows (o : ObjId) : Follows (clear o : Doc α ε Unit) (clear o) := by
  intro s t renamed
  simp only [clear, renamed.content]
  split
  · exact match_fault _ _
  · exact ⟨rfl, renamed⟩
  · exact destroyT_follows _ s t renamed

theorem newOptional_follows (o : ObjId) {body body' : Doc α ε Unit} (same : Follows body body') :
    Follows (newOptional o body) (newOptional o body') :=
  refines_bind (appear_follows o) fun _ => refines_onThrow same (vanish_follows o)

theorem destroy_follows (o : ObjId) : Follows (destroy o : Doc α ε Unit) (destroy o) :=
  refines_bind (clear_follows o) fun _ => vanish_follows o

def Passing.arg : Passing → Arg → Arg
  | .forwarded, v => v
  | .bound, v => { v with cat := v.cat.bound }

theorem pass_eq (p : Passing) {v : Arg} (self : v.ty = .self) (body : Arg → Doc α ε Unit) :
    pass b p v body = body (p.arg v) := by
  cases p with
  | forwarded => rfl
  | bound => exact bindParam_self b self body

theorem Passing.arg_bound (p : Passing) {v : Arg} (self : v.ty = .self) :
    (p.arg v).bound = v.bound := by
  cases p with
  | forwarded => rfl
  | bound => exact Arg.bound_const self

section Actions

include copies

theorem create_follows {how : Init} {o : ObjId} {args args' : List Arg}
    (same : (Call.construct how (.contained o) args).bound = (Call.construct how
      (.contained o) args').bound) :
    Follows (create b how o args) (create b how o args') := by
  intro s t renamed
  simp only [create, renamed.content]
  split
  · exact constructT_follows copies same s t renamed
  · exact match_fault _ _

theorem createFrom_follows (p q : Passing) (o : ObjId) {v : Arg} (self : v.ty = .self) :
    Follows (createFrom b p o v) (createFrom b q o v) := by
  unfold createFrom
  rw [pass_eq p self, pass_eq q self]
  apply create_follows copies
  rw [Call.bound, Call.bound, p.arg_bound self, q.arg_bound self]

theorem updateFrom_follows (p q : Passing) (o : ObjId) {v : Arg} (self : v.ty = .self) :
    Follows (updateFrom b p o v) (updateFrom b q o v) := by
  unfold updateFrom assign
  rw [pass_eq p self, pass_eq q self]
  apply assignT_follows copies
  rw [p.arg_bound self, q.arg_bound self]

theorem newFrom_follows (p q : Passing) (o rhs : ObjId) {v : Arg} (self : v.ty = .self) :
    Follows (newFrom b p o (engaged rhs) v) (newFrom b q o (engaged rhs) v) :=
  newOptional_follows o (refines_bind (engaged_follows rhs) fun _ =>
    refines_ite (createFrom_follows copies p q o self) (refines_pure ()))

theorem assignFrom_follows (p q : Passing) (this rhs : ObjId) {v : Arg} (self : v.ty = .self) :
    Follows (assignFrom b p this (engaged rhs) v) (assignFrom b q this (engaged rhs) v) := by
  apply refines_bind (engaged_follows this)
  intro full
  apply refines_ite
  · exact refines_bind (engaged_follows rhs) fun _ =>
      refines_ite (updateFrom_follows copies p q this self) (clear_follows this)
  · exact refines_bind (engaged_follows rhs) fun _ =>
      refines_ite (createFrom_follows copies p q this self) (refines_pure ())

theorem assignValue_follows (p p' q q' : Passing) (this : ObjId) {v : Arg} (self : v.ty = .self) :
    Follows (assignValue b p p' this v) (assignValue b q q' this v) :=
  refines_bind (engaged_follows this) fun _ =>
    refines_ite (updateFrom_follows copies p q this self) (createFrom_follows copies p' q' this self)

theorem emplace_follows (how : Init) (this : ObjId) (args : List Arg) :
    Follows (emplace b how this args) (emplace b how this args) :=
  refines_bind (clear_follows this) fun _ => create_follows copies rfl

theorem transfer_follows (dst src : ObjId) : Follows (transfer b dst src) (transfer b dst src) :=
  refines_bind (create_follows copies rfl) fun _ => clear_follows src

theorem swap_follows (x y : ObjId) : Follows (swap b x y) (swap b x y) := by
  apply refines_bind (engaged_follows x)
  intro full
  apply refines_ite
  · exact refines_bind (engaged_follows y) fun _ =>
      refines_ite (invokeSwap_follows copies _ _) (transfer_follows copies y x)
  · exact refines_bind (engaged_follows y) fun _ =>
      refines_ite (transfer_follows copies x y) (refines_pure ())

end Actions

/-! ### The operations -/

/-- A style that passes a `T` to the constructor and the assignment of `T`, some way, and swaps by
moving. -/
structure Primary (b : Behaviour α ε) (S : Style α ε) : Prop where
  assignFromT : ∃ p q, S.assignFromT = assignValue b p q
  swap : S.swap = Spec.swap b

include copies in
theorem exec_follows {S S' : Style α ε} (primary : Primary b S) (primary' : Primary b S') {op : Op}
    (ofT : op.OfT) : Follows (exec b S op) (exec b S' op) := by
  obtain ⟨⟨p, q, assigns⟩, swaps⟩ := primary
  obtain ⟨⟨p', q', assigns'⟩, swaps'⟩ := primary'
  cases op with
  | defaultCtor o | noneCtor o => exact appear_follows _
  | valueCtor o src cat => exact newOptional_follows _ (createFrom_follows copies _ _ _ rfl)
  | condCtor o cond src cat =>
    exact newOptional_follows _ (refines_ite (createFrom_follows copies _ _ _ rfl) (refines_pure ()))
  | inPlaceCtor o args | factoryCtor o typed args =>
    exact newOptional_follows _ (create_follows copies rfl)
  | inPlaceIfCtor o cond args =>
    exact newOptional_follows _ (refines_ite (create_follows copies rfl) (refines_pure ()))
  | copyCtor o rhs | moveCtor o rhs => exact newFrom_follows copies _ _ _ _ rfl
  | assignNone this | reset this => exact clear_follows _
  | assignFromT this src cat | resetValue this src =>
    simp only [exec, assigns, assigns']
    exact assignValue_follows copies _ _ _ _ _ rfl
  | copyAssign this rhs | moveAssign this rhs => exact assignFrom_follows copies _ _ _ _ rfl
  | assignFactory this typed args | emplace this args => exact emplace_follows copies _ _ _
  | swap x y =>
    simp only [exec, swaps, swaps']
    exact swap_follows copies _ _
  | destroy o => exact destroy_follows _
  | convCopyCtor | convMoveCtor | exprCtor | assignFromU | convCopyAssign | convMoveAssign =>
    exact ofT.elim

end Spec

end BoostOptional
