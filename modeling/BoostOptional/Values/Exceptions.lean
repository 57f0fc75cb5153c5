import BoostOptional.Safety.Exceptions
import BoostOptional.Values.Runs

/-!
What a throw leaves of the values. Where `T`'s operations leave their operands alone when they throw, so
do the operations on optionals, with three exceptions: an emplacement has given up the old value, a
conversion may have moved from its source, and a swap through a default value may have left one behind.
-/

namespace BoostOptional
open Effect Prog Memory

variable {α ε : Type} {R : Semantics α} {E : Element α} {b : Behaviour α ε}

/-- The values after `op` has thrown. -/
def Op.Undoes (R : Semantics α) (impl : Impl) (vals : Values α) (op : Op) (left : Values α) : Prop :=
  match op with
  | .emplace this _ | .assignFactory this _ _ => left = Values.clear (.contained (.named this)) vals
  | .assignFromU _ src cat => left = vals ∨
    (∃ useDefault, impl = .aligned useDefault) ∧ left = R.leave [⟨src, cat, .other⟩] vals
  | .convMoveCtor _ rhs | .convMoveAssign _ rhs => left = vals ∨
    (∃ useDefault, impl = .aligned useDefault) ∧ left = R.leave [⟨.contained (.named rhs), .rvalue, .other⟩] vals
  | .swap x y => left = vals ∨ impl = .aligned true ∧ ∃ dst ∈ [x, y],
    vals (.contained (.named dst)) = none ∧
      left = Function.update vals (.contained (.named dst)) (some (R.make .direct []))
  | _ => left = vals

/-- When a conversion on the way to `T` has been made and then something throws, its source may have
been moved from. -/
def Semantics.Left (R : Semantics α) (p : Spec.Passing) (v : Arg) (vals left : Values α) : Prop :=
  left = vals ∨ p = .bound ∧ v.ty = .other ∧ left = R.leave [v] vals

/-- A temporary that was constructed and is gone. -/
theorem Semantics.leave_undone {dst : Loc} {args : List Arg} {vals : Values α} {made : Option α}
    (vacant : vals dst = none) :
    Values.clear dst (Function.update (R.leave args vals) dst made) = R.leave args vals := by
  have none : R.leave args vals dst = none := by
    unfold Semantics.leave
    split <;> simp [vacant]
  rw [Values.clear, Function.update_idem, ← none, Function.update_eq_self]

theorem destroyT_quiet {σ : Type} [Memory σ α] (dst : Loc) : Silent (destroyT dst : Prog σ ε Fault Unit) := by
  intro s e t
  unfold destroyT
  split <;> simp

namespace Spec

variable {s : State α} {o : ObjId}

/-! ### What does not throw -/

theorem engaged_silent : Silent (engaged o : Doc α ε Bool) := by
  intro s e t
  unfold engaged
  split <;> simp

theorem appear_silent : Silent (appear o : Doc α ε Unit) := by
  intro s e t
  unfold appear
  split <;> simp

theorem vanish_silent : Silent (vanish o : Doc α ε Unit) := by
  intro s e t
  unfold vanish
  split <;> simp

theorem clear_silent : Silent (clear o : Doc α ε Unit) := by
  intro s e t
  unfold clear
  split
  · simp
  · simp
  · exact destroyT_quiet _ s e t

theorem destroy_silent : Silent (destroy o : Doc α ε Unit) := silent_bind clear_silent fun _ => vanish_silent

theorem innerHasValue_silent (hasValue : α → Bool) (l : Loc) :
    Silent (innerHasValue hasValue l : Doc α ε Bool) := by
  intro s e t
  unfold innerHasValue
  split <;> simp

/-! ### T's operations -/

section Restoring

variable (restores : ∀ c, Restores b c)

include restores

theorem called_restores {c : Call} (live : ∀ l ∈ c.operands, (value s l).isSome = true) {e : ε}
    (threw : (b (trace s) c (value s)).threw = some e) :
    value (log (update s c.operands (b (trace s) c (value s)).after) c) = value s :=
  (restores c).value_eq (fun l member => by rw [← value_isSome]; exact live l member) threw

theorem constructT_restores (how : Init) (dst : Loc) (args : List Arg) :
    (constructT b how dst args s).Throws fun _ t => value t = value s := by
  rw [constructT_eq]
  split
  · trivial
  · split
    · rename_i live
      dsimp only
      cases threw : (b (trace s) (.construct how dst args) (value s)).threw with
      | none => trivial
      | some e =>
        have held : ∀ l ∈ (Call.construct how dst args).operands, (value s l).isSome = true := by
          simpa [Call.operands] using live
        exact called_restores restores held threw
    · trivial

theorem assignT_restores (dst : Loc) (v : Arg) : (assignT b dst v s).Throws fun _ t => value t = value s := by
  rw [assignT_eq]
  split
  · rename_i live
    dsimp only
    cases threw : (b (trace s) (.assign dst v) (value s)).threw with
    | none => trivial
    | some e =>
      refine called_restores restores (c := .assign dst v) (fun l member => ?_) threw
      rcases List.mem_cons.mp member with rfl | member
      · exact live.1
      · rw [List.mem_singleton.mp member]
        exact live.2
  · trivial

theorem invokeSwap_restores (x y : Loc) : (invokeSwap b x y s).Throws fun _ t => value t = value s := by
  rw [invokeSwap_eq]
  split
  · rename_i live
    dsimp only
    cases threw : (b (trace s) (.swap x y) (value s)).threw with
    | none => trivial
    | some e =>
      refine called_restores restores (c := .swap x y) (fun l member => ?_) threw
      rcases List.mem_cons.mp member with rfl | member
      · exact live.1
      · rw [List.mem_singleton.mp member]
        exact live.2
  · trivial

theorem create_restores (how : Init) (args : List Arg) :
    (create b how o args s).Throws fun _ t => value t = value s := by
  unfold create
  split
  · exact constructT_restores restores how _ args
  · trivial

/-! ### Passing a value -/

variable (regular : R.Regular E b)

include regular

theorem pass_left {p : Passing} {v : Arg} {body : Arg → Doc α ε Unit} (typed : p = .bound → v.ty ≠ .inner)
    (inner : ∀ u (t : State α), (body u t).Throws fun _ r => value r = value t) :
    (pass b p v body s).Throws fun _ t => R.Left p v (value s) (value t) := by
  unfold pass
  cases p with
  | forwarded => exact (inner v s).mono fun _ _ same => .inl same
  | bound =>
    change (bindParam b v body s).Throws _
    by_cases self : v.ty = .self
    · rw [bindParam_self b self]
      exact (inner _ s).mono fun _ _ same => .inl same
    · have other : v.ty = .other := by
        cases ty : v.ty with
        | self => exact (self ty).elim
        | other => rfl
        | inner => exact (typed rfl ty).elim
      rw [bindParam_other b self]
      refine throws_andThen ((constructT_restores restores _ _ _).mono fun _ _ same => .inl same)
        (constructT_computes regular .implicit .scratch [v]) fun _ t made => ?_
      obtain ⟨made, vacant, _⟩ := made
      refine throws_bracket (inner _ t) (destroyT_quiet _) fun _ u same => ?_
      have own : ∀ x, Loc.scratch ≠ .var x := by simp
      refine (destroyT_computes own).mono fun _ r gone => .inr ⟨rfl, other, ?_⟩
      rw [gone, same, made, Semantics.construct, Semantics.leave_undone vacant]

theorem createFrom_left {p : Passing} {v : Arg} (typed : p = .bound → v.ty ≠ .inner) :
    (createFrom b p o v s).Throws fun _ t => R.Left p v (value s) (value t) :=
  pass_left restores regular typed fun _ _ => create_restores restores _ _

theorem updateFrom_left {p : Passing} {v : Arg} (typed : p = .bound → v.ty ≠ .inner) :
    (updateFrom b p o v s).Throws fun _ t => R.Left p v (value s) (value t) :=
  pass_left restores regular typed fun u _ => assignT_restores restores _ u

omit restores regular in
theorem newOptional_throws {body : Doc α ε Unit} {P : Values α → Prop}
    (inner : ∀ t : State α, value t = value s → (body t).Throws fun _ u => P (value u)) :
    (newOptional o body s).Throws fun _ t => P (value t) := by
  refine throws_andThen appear_silent.throws (appear_computes o) fun _ t appeared => ?_
  refine throws_onThrow (inner t appeared.1) vanish_silent fun _ u left => ?_
  refine (vanish_computes o).mono fun _ r gone => ?_
  rw [gone]
  exact left

theorem newFrom_left {p : Passing} {test : Doc α ε Bool} {v : Arg} (typed : p = .bound → v.ty ≠ .inner)
    (silent : Silent test) (tests : ∀ t : State α, (test t).Returns fun _ u => u = t) :
    (newFrom b p o test v s).Throws fun _ t => R.Left p v (value s) (value t) := by
  refine newOptional_throws (P := R.Left p v (value s)) fun t appeared => ?_
  refine throws_andThen silent.throws (tests t) fun has u tested => ?_
  subst tested
  rw [← appeared]
  exact throws_ite (fun _ => createFrom_left restores regular typed) fun _ => (silent_pure _).throws

theorem assignFrom_left {p : Passing} {test : Doc α ε Bool} {v : Arg} (typed : p = .bound → v.ty ≠ .inner)
    (silent : Silent test) (tests : (test s).Returns fun _ u => u = s) :
    (assignFrom b p o test v s).Throws fun _ t => R.Left p v (value s) (value t) := by
  refine throws_andThen engaged_silent.throws (engaged_computes o) fun full t here => ?_
  obtain ⟨rfl, -⟩ := here
  refine throws_ite (fun _ => ?_) fun _ => ?_
  · refine throws_andThen silent.throws tests fun has u same => ?_
    subst same
    exact throws_ite (fun _ => updateFrom_left restores regular typed) fun _ => clear_silent.throws
  · refine throws_andThen silent.throws tests fun has u same => ?_
    subst same
    exact throws_ite (fun _ => createFrom_left restores regular typed) fun _ => (silent_pure _).throws

theorem assignValue_left {p q : Passing} {v : Arg} (typed : v.ty ≠ .inner) :
    (assignValue b p q o v s).Throws fun _ t => R.Left p v (value s) (value t) ∨ R.Left q v (value s) (value t) := by
  refine throws_andThen engaged_silent.throws (engaged_computes o) fun full t here => ?_
  obtain ⟨rfl, -⟩ := here
  refine throws_ite (fun _ => ?_) fun _ => ?_
  · exact (updateFrom_left restores regular fun _ => typed).mono fun _ _ => .inl
  · exact (createFrom_left restores regular fun _ => typed).mono fun _ _ => .inr

/-! ### Assigning a `T` -/

omit restores regular in
theorem builtin_silent (builtin : Builtin b) {v : Arg} (self : v.ty = .self) :
    Silent (create b .direct o [v]) ∧ Silent (assignT b (.contained o) v : Doc α ε Unit) := by
  constructor
  · intro s e t
    unfold create
    split
    · rw [constructT_eq]
      simp only [(builtin _ _ _ v self).1]
      split
      · simp
      · split <;> simp
    · simp
  · intro s e t
    rw [assignT_eq]
    simp only [(builtin _ _ _ v self).2]
    split <;> simp

omit restores regular in
/-- A scalar is assigned through a temporary optional without a throw. -/
theorem assignScalar_silent (builtin : Builtin b) (src : Loc) (cat : Cat) :
    Silent (do newOptional .temporary (create b .direct .temporary [⟨src, cat, .self⟩])
               bracket (assignFrom b .forwarded o (engaged .temporary) ⟨.contained .temporary, .rvalue, .self⟩)
                (destroy .temporary) : Doc α ε Unit) := by
  have made := fun o l c => (builtin_silent (o := o) builtin (v := ⟨l, c, .self⟩) rfl).1
  have assigned := fun o l c => (builtin_silent (o := o) builtin (v := ⟨l, c, .self⟩) rfl).2
  refine silent_bind (silent_bind appear_silent fun _ => silent_onThrow (made _ _ _) _) fun _ =>
    silent_bracket ?_ destroy_silent
  refine silent_bind engaged_silent fun _ => silent_ite (fun _ => ?_) fun _ => ?_
  · exact silent_bind engaged_silent fun _ => silent_ite (fun _ => assigned _ _ _) fun _ => clear_silent
  · exact silent_bind engaged_silent fun _ => silent_ite (fun _ => made _ _ _) fun _ => silent_pure _

omit restores regular in
theorem left_own {p : Passing} {v : Arg} {vals left : Values α} (own : v.ty ≠ .other)
    (h : R.Left p v vals left) : left = vals := by
  rcases h with same | ⟨_, other, _⟩
  · exact same
  · exact (own other).elim

theorem unionAssignFromT_restores (scalar : E.isScalar = true → Builtin b) (src : Loc) (cat : Cat) :
    (unionAssignFromT b E o ⟨src, cat, .self⟩ s).Throws fun _ t => value t = value s := by
  have whole : (assignValue b .forwarded .forwarded o ⟨src, cat, .self⟩ s).Throws fun _ t => value t = value s :=
    (assignValue_left restores regular (by simp)).mono fun _ _ left => by
      rcases left with left | left <;> exact left_own (by simp) left
  unfold unionAssignFromT
  cases isScalar : E.isScalar with
  | true => exact (assignScalar_silent (scalar isScalar) _ _).throws
  | false =>
    simp only [Bool.false_eq_true, if_false]
    cases E.hasValue with
    | none => exact whole
    | some hasValue =>
      have inner : ∀ cat, (assignFrom b .forwarded o (innerHasValue hasValue src) ⟨src, cat, .inner⟩ s).Throws
          fun _ t => value t = value s := by
        intro cat
        refine (assignFrom_left restores regular (by simp) (innerHasValue_silent _ _)
          ((innerHasValue_computes hasValue src).mono fun _ _ same => same.1)).mono fun _ _ left => ?_
        exact left_own (by simp) left
      cases cat with
      | lvalue => exact whole
      | constLvalue | rvalue => exact inner _

/-! ### Swap -/

theorem transfer_restores (dst src : ObjId) : (transfer b dst src s).Throws fun _ t => value t = value s :=
  throws_andThen (create_restores restores _ _) (create_computes regular _ _ _) fun _ _ _ => clear_silent.throws

theorem swap_left (x y : ObjId) : (swap b x y s).Throws fun _ t => value t = value s := by
  refine throws_andThen engaged_silent.throws (engaged_computes x) fun hasX t here => ?_
  obtain ⟨rfl, -⟩ := here
  refine throws_ite (fun _ => ?_) fun _ => ?_
  · refine throws_andThen engaged_silent.throws (engaged_computes y) fun hasY u here => ?_
    obtain ⟨rfl, -⟩ := here
    exact throws_ite (fun _ => invokeSwap_restores restores _ _) fun _ =>
      transfer_restores restores regular _ _
  · refine throws_andThen engaged_silent.throws (engaged_computes y) fun hasY u here => ?_
    obtain ⟨rfl, -⟩ := here
    exact throws_ite (fun _ => transfer_restores restores regular _ _) fun _ => (silent_pure _).throws

/-- The default value stays when the swap with it throws. -/
theorem throughDefault_left (dst src x y : ObjId) :
    ((do create b .direct dst []; invokeSwap b (.contained x) (.contained y); clear src : Doc α ε Unit) s).Throws
      fun _ t => value t = value s ∨ value s (.contained dst) = none ∧
        value t = Function.update (value s) (.contained dst) (some (R.make .direct [])) := by
  refine throws_andThen ((create_restores restores _ _).mono fun _ _ => .inl) (create_computes regular _ _ _)
    fun _ t made => ?_
  obtain ⟨made, vacant, _⟩ := made
  refine throws_andThen ((invokeSwap_restores restores _ _).mono fun _ u same => .inr ⟨vacant, ?_⟩)
    (invokeSwap_computes regular _ _) fun _ _ _ => clear_silent.throws
  rw [same, made]
  rfl

theorem swapDefault_left (x y : ObjId) : (swapDefault b x y s).Throws fun _ t => value t = value s ∨
    ∃ dst ∈ [x, y], value s (.contained dst) = none ∧
      value t = Function.update (value s) (.contained dst) (some (R.make .direct [])) := by
  have through : ∀ dst src, dst ∈ [x, y] → ((do
      create b .direct dst []; invokeSwap b (.contained x) (.contained y); clear src : Doc α ε Unit) s).Throws
      fun _ t => value t = value s ∨ ∃ dst ∈ [x, y], value s (.contained dst) = none ∧
        value t = Function.update (value s) (.contained dst) (some (R.make .direct [])) :=
    fun dst src member => (throughDefault_left restores regular dst src x y).mono fun _ _ left =>
      left.imp id fun given => ⟨dst, member, given⟩
  refine throws_andThen engaged_silent.throws (engaged_computes x) fun hasX t here => ?_
  obtain ⟨rfl, -⟩ := here
  refine throws_ite (fun _ => ?_) fun _ => ?_
  · refine throws_andThen engaged_silent.throws (engaged_computes y) fun hasY u here => ?_
    obtain ⟨rfl, -⟩ := here
    exact throws_ite (fun _ => (invokeSwap_restores restores _ _).mono fun _ _ => .inl) fun _ =>
      through y x (.tail _ (.head _))
  · refine throws_andThen engaged_silent.throws (engaged_computes y) fun hasY u here => ?_
    obtain ⟨rfl, -⟩ := here
    exact throws_ite (fun _ => through x y (.head _)) fun _ => (silent_pure _).throws

/-! ### Every operation -/

omit restores regular in
theorem left_kept {p : Passing} {v : Arg} {vals left : Values α} (kept : v.cat ≠ .rvalue)
    (h : R.Left p v vals left) : left = vals := by
  rcases h with same | ⟨_, _, same⟩
  · exact same
  · rw [same]
    funext l
    have unmoved : moves [v] l = false := by simp [moves, kept]
    unfold Semantics.leave
    rw [unmoved]
    rfl

omit restores regular in
/-- Only the aligned implementation converts before it constructs or assigns. -/
theorem left_moved {impl : Impl} {v : Arg} {vals left : Values α}
    (h : R.Left (style b E impl).passing v vals left) :
    left = vals ∨ (∃ useDefault, impl = .aligned useDefault) ∧ left = R.leave [v] vals := by
  rcases h with same | ⟨bound, _, same⟩
  · exact .inl same
  · cases impl with
    | union _ => cases bound
    | aligned useDefault => exact .inr ⟨⟨useDefault, rfl⟩, same⟩

theorem style_assignFromT_restores (scalar : E.isScalar = true → Builtin b) (impl : Impl) (this : ObjId) (src : Loc)
    (cat : Cat) : ((style b E impl).assignFromT this ⟨src, cat, .self⟩ s).Throws fun _ t => value t = value s := by
  cases impl with
  | union _ => exact unionAssignFromT_restores restores regular scalar src cat
  | aligned _ =>
    refine (assignValue_left restores regular (p := .bound) (q := .bound) (v := ⟨src, cat, .self⟩)
      (by simp)).mono fun _ _ left => ?_
    rcases left with left | left <;> exact left_own (by simp) left

theorem style_swap_undoes (impl : Impl) (x y : Nat) :
    ((style b E impl).swap (.named x) (.named y) s).Throws fun _ t => (Op.swap x y).Undoes R impl (value s) (value t) := by
  cases impl with
  | union _ => exact (swap_left restores regular _ _).mono fun _ _ => .inl
  | aligned useDefault =>
    cases useDefault with
    | false => exact (swap_left restores regular _ _).mono fun _ _ => .inl
    | true =>
      refine (swapDefault_left restores regular (.named x) (.named y)).mono fun _ _ left => ?_
      rcases left with same | ⟨dst, member, empty, given⟩
      · exact .inl same
      · refine .inr ⟨rfl, ?_⟩
        rcases List.mem_cons.mp member with rfl | member
        · exact ⟨x, .head _, empty, given⟩
        · obtain rfl := List.mem_singleton.mp member
          exact ⟨y, .tail _ (.head _), empty, given⟩

omit regular in
theorem emplace_undoes (how : Init) (this : ObjId) (args : List Arg) :
    (emplace b how this args s).Throws fun _ t => value t = Values.clear (.contained this) (value s) :=
  throws_andThen clear_silent.throws (clear_computes this) fun _ _ cleared =>
    (create_restores restores how args).mono fun _ _ same => same.trans cleared

omit restores regular in
theorem newIf_restores {o : ObjId} (cond : Bool) {body : Doc α ε Unit}
    (inner : ∀ t : State α, (body t).Throws fun _ u => value u = value t) :
    (newOptional o (if cond then body else pure ()) s).Throws fun _ t => value t = value s :=
  newOptional_throws (P := (· = value s)) fun t appeared => by
    rw [← appeared]
    cases cond with
    | true => exact inner t
    | false => exact (silent_pure ()).throws

theorem exec_undoes (scalar : E.isScalar = true → Builtin b) (impl : Impl) (op : Op) :
    (exec b (style b E impl) op s).Throws fun _ t => op.Undoes R impl (value s) (value t) := by
  have given : ∀ {p o src cat} (t : State α), (createFrom b p o ⟨src, cat, .self⟩ t).Throws
      fun _ u => value u = value t := fun t =>
    (createFrom_left restores regular (by simp)).mono fun _ _ => left_own (by simp)
  cases op with
  | defaultCtor | noneCtor => exact appear_silent.throws
  | valueCtor => exact newIf_restores true given
  | condCtor o cond => exact newIf_restores cond given
  | inPlaceCtor | factoryCtor | exprCtor => exact newIf_restores true fun t => create_restores restores _ _
  | inPlaceIfCtor o cond => exact newIf_restores cond fun t => create_restores restores _ _
  | copyCtor o rhs | moveCtor o rhs =>
    exact (newFrom_left restores regular (by simp) engaged_silent fun t =>
      (engaged_computes _).mono fun _ _ here => here.1).mono fun _ _ => left_own (by simp)
  | convCopyCtor o rhs =>
    exact (newFrom_left restores regular (by simp) engaged_silent fun t =>
      (engaged_computes _).mono fun _ _ here => here.1).mono fun _ _ => left_kept (by simp)
  | convMoveCtor o rhs =>
    exact (newFrom_left restores regular (by simp) engaged_silent fun t =>
      (engaged_computes _).mono fun _ _ here => here.1).mono fun _ _ => left_moved
  | assignNone | reset => exact clear_silent.throws
  | assignFromT | resetValue => exact style_assignFromT_restores restores regular scalar impl _ _ _
  | assignFromU this src cat =>
    refine (assignValue_left restores regular (by simp)).mono fun _ _ left => ?_
    rcases left with left | left
    · exact left_moved left
    · rcases left with same | ⟨bound, _⟩
      · exact .inl same
      · cases bound
  | copyAssign this rhs | moveAssign this rhs =>
    exact (assignFrom_left restores regular (by simp) engaged_silent
      ((engaged_computes _).mono fun _ _ here => here.1)).mono fun _ _ => left_own (by simp)
  | convCopyAssign this rhs =>
    exact (assignFrom_left restores regular (by simp) engaged_silent
      ((engaged_computes _).mono fun _ _ here => here.1)).mono fun _ _ => left_kept (by simp)
  | convMoveAssign this rhs =>
    exact (assignFrom_left restores regular (by simp) engaged_silent
      ((engaged_computes _).mono fun _ _ here => here.1)).mono fun _ _ => left_moved
  | assignFactory this typed args | emplace this args => exact emplace_undoes restores _ _ _
  | swap x y => exact style_swap_undoes restores regular impl x y
  | destroy => exact destroy_silent.throws

end Restoring

end Spec

/-- What an operation of an implementation leaves of the values when it throws. -/
theorem Impl.exec_undoes {impl : Impl} {w w' : World α} (regular : R.Regular E b)
    (restores : ∀ c, Spec.Restores b c) (scalar : E.isScalar = true → Builtin b) (settled : w.Settled) {op : Op}
    (legal : op.Legal w) (free : op.SelfFree) {e : ε} (ends : (impl.exec E b op w).Ends (some e) w') :
    op.Undoes R impl w.value w'.value := by
  have rep := consistent_represents settled.consistent
  have safe := Spec.exec_quiet b E impl settled.document_quiet (rep.legal legal) free
  have matched := impl.exec_implements E b op legal.fresh w _ rep
  obtain ⟨t, ends', rep'⟩ := (matched.flip (safe.mono (fun _ _ _ => trivial) fun _ _ _ => trivial)).ends ends
  have undone := (Spec.exec_undoes restores regular scalar impl op).ends ends'
  have before : w.value = value w.document := rep.value_eq
  have after : w'.value = value t := rep'.value_eq
  rw [before, after]
  exact undone

end BoostOptional
