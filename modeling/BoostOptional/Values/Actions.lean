import BoostOptional.Values.Semantics
import BoostOptional.Spec

/-!
What each action of the document makes of the values, when it returns. A conversion goes through a
temporary `T` and a scalar through a temporary optional. Neither shows in the result.
-/

namespace BoostOptional
open Effect Prog Memory

variable {α ε : Type} {R : Semantics α} {E : Element α} {b : Behaviour α ε} {vals : Values α} {dst : Loc} {v : Arg}

/-! ### The semantics -/

namespace Semantics

theorem receive_absent (absent : vals v.loc = none) : R.receive dst v vals = Values.clear dst vals := by
  have kept : R.leave [v] vals = vals := by
    funext l
    unfold leave
    split
    · rename_i moved
      obtain ⟨here, _⟩ : v.loc = l ∧ v.cat = .rvalue := by simpa [moves] using moved
      rw [← here, absent]
      rfl
    · rfl
  rw [receive, kept, absent]
  rfl

theorem construct_receive {x : α} (held : vals v.loc = some x) :
    R.construct .direct dst [v] vals = R.receive dst v vals := by
  simp [construct, receive, held]

theorem assign_own (own : v.ty ≠ .inner) : R.assign dst v vals = R.receive dst v vals := by
  unfold assign
  split
  · rename_i inner
    exact (own inner).elim
  · rfl

/-- Over a value. -/
theorem assign_eq {old x : α} (full : vals dst = some old) (held : vals v.loc = some x) :
    R.assign dst v vals = Function.update (R.leave [v] vals) dst (some (R.store v.ty old x)) := by
  obtain ⟨l, cat, ty⟩ := v
  have held : vals l = some x := held
  cases ty <;> simp [assign, receive, receiveInner, store, full, held]

theorem leave_bound : R.leave [{ v with cat := v.cat.bound }] vals = R.leave [v] vals := by
  funext l
  cases cat : v.cat <;> simp [leave, moves, cat, Cat.bound]

theorem receive_bound : R.receive dst { v with cat := v.cat.bound } vals = R.receive dst v vals := by
  rw [receive, leave_bound]
  rfl

/-- A conversion makes the same value whether it is explicit or not. -/
theorem construct_implicit {x : α} (other : v.ty = .other) (held : vals v.loc = some x) :
    R.construct .implicit dst [v] vals = R.receive dst v vals := by
  simp [construct, receive, held, other, R.make_implicit]

/-- Through a temporary that is moved from and then destroyed. -/
theorem receive_through {temporary : Loc} {x : α} (held : vals v.loc = some x) (vacant : vals temporary = none)
    (apart : dst ≠ temporary) :
    Values.clear temporary (R.receive dst ⟨temporary, .rvalue, .self⟩ (R.receive temporary v vals)) =
      R.receive dst v vals := by
  funext l
  by_cases here : l = dst
  · subst here
    simp [Values.clear, receive, apart, held, R.make_self]
  · by_cases there : l = temporary
    · subst there
      have unmoved : R.leave [v] vals l = none := by simp [leave, vacant]
      simp [Values.clear, receive, here, unmoved]
    · have unmoved : ¬ temporary = l := fun same => there same.symm
      simp [Values.clear, receive, here, there, leave, moves, unmoved]

/-- The value of an empty target plays no part. -/
theorem construct_clear {how : Init} {args : List Arg} (free : ∀ u ∈ args, u.loc ≠ dst) :
    R.construct how dst args (Values.clear dst vals) = R.construct how dst args vals := by
  have read : (args.map fun u => (u.ty, Values.clear dst vals u.loc)) = args.map fun u => (u.ty, vals u.loc) :=
    List.map_congr_left fun u member => by
      rw [Values.clear, Function.update_of_ne (free u member)]
  funext l
  by_cases here : l = dst
  · subst here
    simp only [construct, Function.update_self, read]
  · simp [construct, here, leave, Values.clear]

end Semantics

theorem Values.clear_absent (absent : vals dst = none) : Values.clear dst vals = vals := by
  rw [Values.clear, ← absent, Function.update_eq_self]

namespace Spec

variable {s : State α}

/-! ### T's operations -/

theorem called_value (operands : List Loc) (after : Loc → α) (c : Call) (l : Loc) :
    value (log (update s operands after) c) l = if l ∈ operands then some (after l) else value s l := by
  cases l <;> simp only [Memory.value, State.value, Memory.log, Memory.update, State.update] <;> split <;> rfl

theorem place_value (dst l : Loc) (x : α) :
    value (place s dst x) l = if l = dst then some x else value s l := by
  cases dst <;> cases l <;>
    simp only [Memory.value, State.value, Memory.place, State.place, State.setContent, reduceCtorEq,
      if_false, if_true, Loc.contained.injEq, Loc.var.injEq] <;> split <;> rfl

theorem setContent_value (o : ObjId) (c : Option (Option α)) :
    value (s.setContent o c) = Function.update (value s) (.contained o) c.join := by
  funext l
  cases l with
  | contained p =>
    by_cases here : p = o
    · subst here
      simp [Memory.value, State.value, State.setContent]
    · simp [Memory.value, State.value, State.setContent, here]
  | var | scratch => simp [Memory.value, State.value, State.setContent]

theorem constructT_computes (regular : R.Regular E b) (how : Init) (dst : Loc) (args : List Arg) :
    (constructT b how dst args s).Returns fun _ t =>
      value t = R.construct how dst args (value s) ∧ value s dst = none ∧
        ∀ u ∈ args, (value s u.loc).isSome = true := by
  rw [constructT_eq]
  split
  · trivial
  · rename_i vacant
    split
    · rename_i live
      dsimp only
      cases threw : (b (trace s) (.construct how dst args) (value s)).threw with
      | some e => trivial
      | none =>
        obtain ⟨result, after⟩ := regular.construct _ _ _ _ _ threw
        have held : ∀ u ∈ args, (value s u.loc).isSome = true := by simpa using live
        refine ⟨?_, by simpa using vacant, held⟩
        funext l
        rw [place_value, called_value, Semantics.construct, result]
        by_cases here : l = dst
        · subst here
          simp
        · rw [if_neg here, Function.update_of_ne here, Semantics.leave]
          split
          · rename_i member
            obtain ⟨u, given, rfl⟩ := List.mem_map.mp member
            obtain ⟨x, full⟩ := Option.isSome_iff_exists.mp (held u given)
            rw [after u given x full, full]
            split <;> rfl
          · rename_i other
            have unmoved : moves args l = false := by
              simp only [moves, List.any_eq_false, decide_eq_true_eq, not_and]
              intro u member same
              exact (other (same ▸ List.mem_map_of_mem member)).elim
            rw [unmoved]
            rfl
    · trivial

theorem assignT_computes (regular : R.Regular E b) {dst : Loc} {v : Arg} (unaliased : Unaliased dst v) :
    (assignT b dst v s).Returns fun _ t => value t = R.assign dst v (value s) := by
  rw [assignT_eq]
  split
  · rename_i live
    dsimp only
    cases threw : (b (trace s) (.assign dst v) (value s)).threw with
    | some e => trivial
    | none =>
      obtain ⟨old, full⟩ := Option.isSome_iff_exists.mp live.1
      obtain ⟨x, held⟩ := Option.isSome_iff_exists.mp live.2
      obtain ⟨target, source⟩ := regular.assign _ _ _ _ _ _ threw full held unaliased
      change value (log _ _) = _
      funext l
      rw [called_value, Semantics.assign_eq full held]
      by_cases here : l = dst
      · subst here
        simp [target]
      · rw [Function.update_of_ne here, Semantics.leave]
        by_cases read : l = v.loc
        · subst read
          rw [if_pos (by simp), source here, held]
          by_cases moved : v.cat = .rvalue <;> simp [moves, moved]
        · have unmoved : moves [v] l = false := by simp [moves, Ne.symm read]
          rw [if_neg (by simp [here, read]), unmoved]
          rfl
  · trivial

theorem invokeSwap_computes (regular : R.Regular E b) (x y : Loc) :
    (invokeSwap b x y s).Returns fun _ t => value t = Values.exchange x y (value s) := by
  rw [invokeSwap_eq]
  split
  · rename_i live
    dsimp only
    cases threw : (b (trace s) (.swap x y) (value s)).threw with
    | some e => trivial
    | none =>
      obtain ⟨vx, heldX⟩ := Option.isSome_iff_exists.mp live.1
      obtain ⟨vy, heldY⟩ := Option.isSome_iff_exists.mp live.2
      obtain ⟨atX, atY⟩ := regular.swap _ _ _ _ _ _ threw heldX heldY
      change value (log _ _) = _
      funext l
      rw [called_value, Values.exchange]
      by_cases second : l = y
      · subst second
        simp [atY, heldX]
      · by_cases first : l = x
        · subst first
          simp [second, atX, heldY]
        · simp [second, first]
  · trivial

theorem destroyT_computes {dst : Loc} (own : ∀ x, dst ≠ .var x) :
    ((destroyT dst : Doc α ε Unit) s).Returns fun _ t => value t = Values.clear dst (value s) := by
  unfold destroyT
  split
  · change value (log (vacate s dst) _) = _
    cases dst with
    | contained o => exact setContent_value o (some none)
    | var x => exact (own x rfl).elim
    | scratch =>
      funext l
      cases l <;> simp [Memory.value, State.value, Memory.log, Memory.vacate, State.vacate, Values.clear]
  · trivial

/-! ### Optional objects -/

theorem engaged_computes (o : ObjId) :
    ((engaged o : Doc α ε Bool) s).Returns fun has t => t = s ∧ has = (value s (.contained o)).isSome := by
  unfold engaged
  cases content : s.content o with
  | none => trivial
  | some c =>
    refine ⟨rfl, ?_⟩
    rw [show value s (.contained o) = (s.content o).join from rfl, content]
    cases c <;> rfl

theorem appear_computes (o : ObjId) :
    ((appear o : Doc α ε Unit) s).Returns fun _ t => value t = value s ∧ value s (.contained o) = none := by
  unfold appear
  cases content : s.content o with
  | some c => trivial
  | none =>
    have absent : value s (.contained o) = none := by
      rw [show value s (.contained o) = (s.content o).join from rfl, content]
      rfl
    refine ⟨?_, absent⟩
    rw [setContent_value]
    exact Values.clear_absent absent

theorem vanish_computes (o : ObjId) :
    ((vanish o : Doc α ε Unit) s).Returns fun _ t => value t = value s := by
  unfold vanish
  split
  · rename_i content
    have empty : value s (.contained o) = none := by
      rw [show value s (.contained o) = (s.content o).join from rfl, content]
      rfl
    change value (s.setContent o none) = _
    rw [setContent_value]
    exact Values.clear_absent empty
  · trivial

theorem create_computes (regular : R.Regular E b) (how : Init) (o : ObjId) (args : List Arg) :
    (create b how o args s).Returns fun _ t =>
      value t = R.construct how (.contained o) args (value s) ∧ value s (.contained o) = none ∧
        ∀ u ∈ args, (value s u.loc).isSome = true := by
  unfold create
  split
  · exact constructT_computes regular how _ args
  · trivial

theorem clear_computes (o : ObjId) :
    ((clear o : Doc α ε Unit) s).Returns fun _ t => value t = Values.clear (.contained o) (value s) := by
  unfold clear
  split
  · trivial
  · rename_i content
    have empty : value s (.contained o) = none := by
      rw [show value s (.contained o) = (s.content o).join from rfl, content]
      rfl
    exact (Values.clear_absent empty).symm
  · exact destroyT_computes nofun

theorem newOptional_computes {o : ObjId} {body : Doc α ε Unit} {Q : Values α → Prop}
    (built : ∀ t : State α, value t = value s → value s (.contained o) = none →
      (body t).Returns fun _ u => Q (value u)) :
    (newOptional o body s).Returns fun _ u => Q (value u) :=
  returns_andThen (appear_computes o) fun _ t appeared => returns_onThrow (built t appeared.1 appeared.2)

theorem destroy_computes (o : ObjId) :
    ((destroy o : Doc α ε Unit) s).Returns fun _ t => value t = Values.clear (.contained o) (value s) :=
  returns_andThen (clear_computes o) fun _ _ cleared =>
    (vanish_computes o).mono fun _ _ gone => gone.trans cleared

/-! ### Passing a value -/

/-- However the argument reaches the `T`, and whether it is constructed or assigned. -/
theorem pass_computes (regular : R.Regular E b) {p : Passing} {dst : Loc} {v : Arg} {body : Arg → Doc α ε Unit}
    (apart : dst ≠ .scratch) (typed : p = .bound → v.ty ≠ .inner) (ok : Arg → Prop) (given : ok v)
    (bound : ok v → ok { v with cat := v.cat.bound }) (temporary : ok ⟨.scratch, .rvalue, .self⟩)
    (receives : ∀ u (t : State α), ok u → (body u t).Returns fun _ r => value r = R.receive dst u (value t)) :
    (pass b p v body s).Returns fun _ t => value t = R.receive dst v (value s) := by
  unfold pass
  cases p with
  | forwarded => exact receives v s given
  | bound =>
    by_cases self : v.ty = .self
    · change (bindParam b v body s).Returns _
      rw [bindParam_self b self, ← R.receive_bound]
      exact receives _ s (bound given)
    · have other : v.ty = .other := by
        cases ty : v.ty with
        | self => exact (self ty).elim
        | other => rfl
        | inner => exact (typed rfl ty).elim
      change (bindParam b v body s).Returns _
      rw [bindParam_other b self]
      refine returns_andThen (constructT_computes regular .implicit .scratch [v]) fun _ t made => ?_
      obtain ⟨made, vacant, live⟩ := made
      obtain ⟨x, held⟩ := Option.isSome_iff_exists.mp (live v (.head _))
      refine returns_bracket (receives ⟨.scratch, .rvalue, .self⟩ t temporary) fun _ r received => ?_
      have own : ∀ x, Loc.scratch ≠ .var x := by simp
      refine (destroyT_computes own).mono fun _ u gone => ?_
      rw [gone, received, made, Semantics.construct_implicit other held]
      exact Semantics.receive_through held vacant apart

theorem createFrom_computes (regular : R.Regular E b) {p : Passing} {o : ObjId} {v : Arg}
    (typed : p = .bound → v.ty ≠ .inner) :
    (createFrom b p o v s).Returns fun _ t => value t = R.receive (.contained o) v (value s) := by
  refine pass_computes regular (by simp) typed (fun _ => True) trivial (fun _ => trivial) trivial fun u t _ => ?_
  refine (create_computes regular .direct o [u]).mono fun _ r made => ?_
  obtain ⟨made, _, live⟩ := made
  obtain ⟨x, held⟩ := Option.isSome_iff_exists.mp (live u (.head _))
  rw [made, Semantics.construct_receive held]

theorem updateFrom_computes (regular : R.Regular E b) {p : Passing} {o : ObjId} {v : Arg} (typed : v.ty ≠ .inner)
    (unaliased : Unaliased (.contained o) v) :
    (updateFrom b p o v s).Returns fun _ t => value t = R.receive (.contained o) v (value s) := by
  have receives : ∀ u (t : State α), u.ty ≠ .inner ∧ Unaliased (.contained o) u →
      (assignT b (.contained o) u t).Returns fun _ r => value r = R.receive (.contained o) u (value t) := by
    rintro u t ⟨own, given⟩
    rw [← Semantics.assign_own own]
    exact assignT_computes regular given
  refine pass_computes regular (by simp) (fun _ => typed) _ ⟨typed, unaliased⟩ (fun given => ⟨given.1, ?_⟩)
    ⟨by simp, .inl (by simp)⟩ receives
  rcases given.2 with apart | ⟨own, still⟩
  · exact .inl apart
  · refine .inr ⟨own, ?_⟩
    cases cat : v.cat <;> simp_all [Cat.bound]

/-! ### Construction and assignment -/

theorem newFrom_computes (regular : R.Regular E b) {p : Passing} {o rhs : ObjId} {cat : Cat} {ty : ArgTy}
    (typed : p = .bound → ty ≠ .inner) :
    (newFrom b p o (engaged rhs) ⟨.contained rhs, cat, ty⟩ s).Returns fun _ t =>
      value t = R.receive (.contained o) ⟨.contained rhs, cat, ty⟩ (value s) := by
  refine newOptional_computes (Q := (· = _)) fun t appeared absent => ?_
  refine returns_andThen (engaged_computes rhs) fun has u tested => ?_
  obtain ⟨rfl, rfl⟩ := tested
  refine returns_ite (fun _ => ?_) fun empty => ?_
  · exact (createFrom_computes regular typed).mono fun _ _ made => by rw [made, appeared]
  · have none : value s (.contained rhs) = none := by
      rw [← appeared]
      simpa using empty
    change value u = _
    rw [Semantics.receive_absent none, Values.clear_absent absent, appeared]

/-- The body of an assignment from an optional, over what its two ways to store a value make. -/
theorem assignFrom_either {p : Passing} {this : ObjId} {test : Doc α ε Bool} {v : Arg} {has : Bool}
    {f : Values α}
    (updates : (updateFrom b p this v s).Returns fun _ t => value t = f)
    (creates : has = true → value s (.contained this) = none →
      (createFrom b p this v s).Returns fun _ t => value t = f)
    (tests : (test s).Returns fun tested t => t = s ∧ tested = has) :
    (assignFrom b p this test v s).Returns fun _ t =>
      value t = if has then f else Values.clear (.contained this) (value s) := by
  refine returns_andThen (engaged_computes this) fun full t here => ?_
  obtain ⟨rfl, rfl⟩ := here
  refine returns_ite (fun _ => ?_) fun empty => ?_
  · refine returns_andThen tests fun tested u same => ?_
    obtain ⟨rfl, rfl⟩ := same
    refine returns_ite (fun yes => ?_) fun no => ?_
    · rw [if_pos yes]
      exact updates
    · rw [if_neg (by simp [no])]
      exact clear_computes this
  · have absent : value t (.contained this) = none := by simpa using empty
    refine returns_andThen tests fun tested u same => ?_
    obtain ⟨rfl, rfl⟩ := same
    refine returns_ite (fun yes => ?_) fun no => ?_
    · rw [if_pos yes]
      exact creates yes absent
    · rw [if_neg (by simp [no])]
      exact (Values.clear_absent absent).symm

theorem assignFrom_computes (regular : R.Regular E b) {p : Passing} {this : ObjId} {test : Doc α ε Bool}
    {v : Arg} {has : Bool} (typed : v.ty ≠ .inner) (unaliased : Unaliased (.contained this) v)
    (tests : (test s).Returns fun tested t => t = s ∧ tested = has) :
    (assignFrom b p this test v s).Returns fun _ t =>
      value t = if has then R.receive (.contained this) v (value s)
        else Values.clear (.contained this) (value s) :=
  assignFrom_either (updateFrom_computes regular typed unaliased)
    (fun _ _ => createFrom_computes regular fun _ => typed) tests

theorem assignValue_computes (regular : R.Regular E b) {p q : Passing} {this : ObjId} {v : Arg}
    (typed : v.ty ≠ .inner) (unaliased : Unaliased (.contained this) v) :
    (assignValue b p q this v s).Returns fun _ t => value t = R.receive (.contained this) v (value s) := by
  refine returns_andThen (engaged_computes this) fun full t here => ?_
  obtain ⟨rfl, rfl⟩ := here
  exact returns_ite (fun _ => updateFrom_computes regular typed unaliased)
    fun _ => createFrom_computes regular fun _ => typed

end Spec

end BoostOptional
