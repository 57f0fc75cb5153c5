import BoostOptional.Accessors.Values
import BoostOptional.Elementary.Histories

/-!
Programs with accessors, whatever throws. A statement does what the table says, or lets out what an
operation of `T` threw. Then the object that an accessor returned is gone, and what it was made of may have
been moved from.
-/

namespace BoostOptional
open Effect Prog Memory

variable {α ε : Type} {R : Semantics α} {E : Element α} {impl : Impl}

/-- Some operation of `T` throws `e`. -/
def Behaviour.Raises (b : Behaviour α ε) (e : ε) : Prop := ∃ trace c values, (b trace c values).threw = some e

/-- The values that remain when `T` has thrown in a statement. -/
def Statement.Remains (R : Semantics α) (impl : Impl) (vals : Values α) (left : Values α) : Statement α ε → Prop
  | .operation op => op.Undoes R impl vals left
  | .valueOr _ this isRvalue v => left = vals ∨ left = R.leave
    [if (vals (.contained (.named this))).isSome then
      ⟨.contained (.named this), if isRvalue then .rvalue else .constLvalue, .self⟩ else v] vals
  | .valueOrEval _ this isRvalue f => left = vals ∨
    if (vals (.contained (.named this))).isSome then
      left = R.leave [⟨.contained (.named this), if isRvalue then .rvalue else .constLvalue, .self⟩] vals
    else ∃ v, f vals = .ok v ∧ left = R.leave [v] vals
  | _ => left = vals

/-- An ending that the table gives, or a throw of `T` that leaves some values. -/
def Behaviour.Follows (b : Behaviour α (Thrown ε)) (table : Values α × Option (Thrown ε)) (left : Values α → Prop)
    (threw : Option (Thrown ε)) (next : Values α) : Prop :=
  (next, threw) = table ∨ table.2 = none ∧ (∃ e, threw = some e ∧ b.Raises e) ∧ left next

theorem Behaviour.Follows.returned {b : Behaviour α (Thrown ε)} {table : Values α × Option (Thrown ε)}
    {left : Values α → Prop} {next : Values α} (follows : b.Follows table left none next) : next = table.1 := by
  rcases follows with same | ⟨_, ⟨_, never, _⟩, _⟩
  · exact congrArg Prod.fst same
  · cases never

/-- The values from `vals` to `last`, through statements that returned or threw. -/
def Statement.Leads (R : Semantics α) (E : Element α) (impl : Impl) (b : Behaviour α (Thrown ε)) :
    Values α → List (Statement α ε × Option (Thrown ε)) → Values α → Prop
  | vals, [], last => last = vals
  | vals, (s, threw) :: rest, last => ∃ next, b.Follows (s.effect R E impl vals) (s.Remains R impl vals ·) threw next ∧
    Leads R E impl b next rest last

/-! ### What throws -/

section Raising

variable {σ : Type} [Memory σ α] (b : Behaviour α ε) {s : σ}

theorem constructT_raises (how : Init) (dst : Loc) (args : List Arg) :
    (constructT b how dst args s).Throws fun e _ => b.Raises e := by
  rw [constructT_eq]
  split
  · trivial
  · split
    · dsimp only
      cases threw : (b (trace s) (.construct how dst args) (value s)).threw with
      | none => trivial
      | some e => exact ⟨_, _, _, threw⟩
    · trivial

theorem assignT_raises (dst : Loc) (v : Arg) : (assignT b dst v s).Throws fun e _ => b.Raises e := by
  rw [assignT_eq]
  split
  · dsimp only
    cases threw : (b (trace s) (.assign dst v) (value s)).threw with
    | none => trivial
    | some e => exact ⟨_, _, _, threw⟩
  · trivial

end Raising

namespace Spec

variable {b : Behaviour α (Thrown ε)} {s : State α}

theorem returned_raises (b : Behaviour α (Thrown ε)) (v : Arg) :
    (Accessor.returned b v s).Throws fun e _ => b.Raises e := by
  unfold Accessor.returned
  cases v.ty <;> exact constructT_raises b _ _ _

theorem alternative_raises (b : Behaviour α (Thrown ε)) (isRvalue : Bool) (v : Arg) :
    (Accessor.alternative b impl isRvalue v s).Throws fun e _ => b.Raises e := by
  unfold Accessor.alternative
  cases impl with
  | union _ =>
    cases isRvalue with
    | false => exact constructT_raises b _ _ _
    | true => exact returned_raises b v
  | aligned _ => exact returned_raises b v

theorem produced_raises {c : Doc α (Thrown ε) Unit} {x : Nat} (raises : (c s).Throws fun e _ => b.Raises e) :
    ((c >>= fun _ => Accessor.assignResult b x) s).Throws fun e _ => b.Raises e :=
  throws_andThen raises (.any _) fun _ _ _ => throws_bracket (assignT_raises b _ _) (destroyT_quiet _)
    fun _ _ raised => (Outcome.Returns.any _).mono fun _ _ _ => raised

theorem vacant_silent (dst : Loc) : Silent (vacant dst : Doc α (Thrown ε) Unit) := by
  intro s e t
  unfold vacant
  split <;> simp

theorem fromResult_raises (r : Nat) (y : α) :
    (Accessor.fromResult (exec b (style b E impl)) r y s).Throws fun e _ => b.Raises e := by
  refine throws_andThen (vacant_silent _).throws (.any _) fun _ _ _ =>
    throws_andThen (silent_write _).throws (.any _) fun _ t _ => throws_bracket (D := fun e _ => b.Raises e) ?_
      (destroyT_quiet _) fun _ _ raised => (Outcome.Returns.any _).mono fun _ _ _ => raised
  have new : (newOptional (.named r) (create b .direct (.named r) [⟨.scratch, .rvalue, .self⟩]) t).Throws
      fun e _ => b.Raises e := by
    refine throws_andThen appear_silent.throws (.any _) fun _ u _ => throws_onThrow (D := fun e _ => b.Raises e) ?_
      vanish_silent fun _ _ raised => (Outcome.Returns.any _).mono fun _ _ _ => raised
    unfold create
    split
    · exact constructT_raises b _ _ _
    · trivial
  cases impl <;> exact new

/-! ### What remains of the values -/

section Restoring

variable (restores : ∀ c, Restores b c)

include restores

theorem returned_restores (v : Arg) : (Accessor.returned b v s).Throws fun _ t => value t = value s := by
  unfold Accessor.returned
  cases v.ty <;> exact constructT_restores restores _ _ _

theorem alternative_restores (isRvalue : Bool) (v : Arg) :
    (Accessor.alternative b impl isRvalue v s).Throws fun _ t => value t = value s := by
  unfold Accessor.alternative
  cases impl with
  | union _ =>
    cases isRvalue with
    | false => exact constructT_restores restores _ _ _
    | true => exact returned_restores restores v
  | aligned _ => exact returned_restores restores v

/-- The result of an accessor is there when its assignment throws, and is destroyed. -/
theorem produced_left {c : Doc α (Thrown ε) Unit} {x : Nat} {v : Arg}
    (throws : (c s).Throws fun _ t => value t = value s)
    (produced : (c s).Returns fun _ t => value t = R.receive .scratch v (value s) ∧
      value s .scratch = none ∧ (value s v.loc).isSome = true) :
    ((c >>= fun _ => Accessor.assignResult b x) s).Throws fun _ t =>
      value t = value s ∨ value t = R.leave [v] (value s) := by
  refine throws_andThen (throws.mono fun _ _ => .inl) produced fun _ t made => ?_
  obtain ⟨made, vacant, _⟩ := made
  refine throws_bracket (assignT_restores restores _ _) (destroyT_quiet _) fun _ u same => ?_
  have own : ∀ x, Loc.scratch ≠ .var x := by simp
  refine (destroyT_computes own).mono fun _ r gone => .inr ?_
  rw [gone, same, made, Semantics.receive, Semantics.leave_undone vacant]

variable (regular : R.Regular E b)

include regular

theorem fromResult_restores (scalar : E.isScalar = true → Builtin b) (r : Nat) (y : α) :
    (Accessor.fromResult (exec b (style b E impl)) r y s).Throws fun _ t => value t = value s := by
  refine throws_andThen (vacant_silent _).throws (vacant_computes .scratch) fun _ t vacated => ?_
  obtain ⟨rfl, vacated⟩ := vacated
  refine throws_andThen (silent_write _).throws (place_computes y) fun _ u made => ?_
  refine throws_bracket (exec_undoes restores regular scalar impl (.valueCtor r .scratch .rvalue))
    (destroyT_quiet _) fun _ v same => ?_
  have own : ∀ x, Loc.scratch ≠ .var x := by simp
  refine (destroyT_computes own).mono fun _ w gone => ?_
  rw [gone, show value v = value u from same, made, Values.clear, Function.update_idem, ← vacated,
    Function.update_eq_self]

/-! ### Statements -/

omit restores regular in
theorem follows_of {o : Outcome (State α) (Thrown ε) Fault Unit} {vals : Values α} {left : Values α → Prop}
    (returns : o.Returns fun _ t => value t = vals) (throws : o.Throws fun _ t => left (value t))
    (raises : o.Throws fun e _ => b.Raises e) {threw : Option (Thrown ε)} {t : State α} (ends : o.Ends threw t) :
    b.Follows (vals, none) left threw (value t) := by
  cases threw with
  | none => exact .inl (by rw [returns.ends ends])
  | some e => exact .inr ⟨rfl, ⟨e, rfl, raises.ends ends⟩, throws.ends ends⟩

omit restores regular in
theorem follows_thrown {e : Thrown ε} {left : Values α → Prop} {threw : Option (Thrown ε)} {t : State α}
    (ends : (.thrown e s : Outcome (State α) (Thrown ε) Fault Unit).Ends threw t) :
    b.Follows (value s, some e) left threw (value t) := by
  obtain ⟨rfl, rfl⟩ := ends
  exact .inl rfl

theorem produced_follows {c : Doc α (Thrown ε) Unit} {x : Nat} {v : Arg} {left : Values α → Prop}
    {threw : Option (Thrown ε)} {t : State α}
    (remains : ∀ vals, vals = value s ∨ vals = R.leave [v] (value s) → left vals)
    (throws : (c s).Throws fun _ t => value t = value s) (raises : (c s).Throws fun e _ => b.Raises e)
    (produced : (c s).Returns fun _ t => value t = R.receive .scratch v (value s) ∧
      value s .scratch = none ∧ (value s v.loc).isSome = true)
    (ends : ((c >>= fun _ => Accessor.assignResult b x) s).Ends threw t) :
    b.Follows (R.receive (.var x) v (value s), none) left threw (value t) :=
  follows_of (produced_computes regular produced)
    ((produced_left restores throws produced).mono fun _ _ => remains _) (produced_raises raises) ends

variable (impl) in
omit restores in
theorem noneCtor_follows {r : Nat} {left : Values α → Prop} {threw : Option (Thrown ε)} {t : State α}
    (ends : (exec b (style b E impl) (.noneCtor r) s).Ends threw t) :
    b.Follows (Values.clear (.contained (.named r)) (value s), none) left threw (value t) := by
  have emptied : (exec b (style b E impl) (.noneCtor r) s).Returns fun _ t =>
      value t = Values.clear (.contained (.named r)) (value s) := exec_computes regular impl trivial
  exact follows_of emptied appear_silent.throws appear_silent.throws ends

theorem flatMapped_follows (scalar : E.isScalar = true → Builtin b) {r : Nat} {f : α → Except ε (Option α)} {v : Arg}
    {x : α} (held : value s v.loc = some x) {threw : Option (Thrown ε)} {t : State α}
    (ends : (Accessor.flatMapped (exec b (style b E impl)) r f v s).Ends threw t) :
    b.Follows (mapEffect r (some x) f (value s)) (· = value s) threw (value t) := by
  change (andThen (Accessor.callFunction f v) _ s).Ends threw t at ends
  cases run : f x with
  | error e =>
    rw [andThen_thrown (callFunction_error held run)] at ends
    rw [mapEffect_error run]
    exact follows_thrown ends
  | ok y =>
    rw [andThen_ok (callFunction_ok held run)] at ends
    rw [mapEffect_ok run]
    cases y with
    | some y =>
      exact follows_of (fromResult_computes regular r y) (fromResult_restores restores regular scalar r y)
        (fromResult_raises r y) ends
    | none => exact noneCtor_follows impl regular ends

theorem flatMap_follows (scalar : E.isScalar = true → Builtin b) {r this : Nat} {cat : Cat}
    {f : α → Except ε (Option α)} (allowed : Allowed s (.flatMap r this cat f)) {threw : Option (Thrown ε)}
    {t : State α} (ends : (perform b E impl (.flatMap r this cat f) s).Ends threw t) :
    b.Follows (mapEffect r (value s (.contained (.named this))) f (value s)) (· = value s) threw (value t) := by
  obtain ⟨⟨init, here⟩, _⟩ := allowed
  have full := flag_value here
  simp only [perform, Statement.exec, Accessor.flatMap, bind_apply] at ends
  rw [andThen_ok (engaged_holds here)] at ends
  cases held : value s (.contained (.named this)) with
  | none =>
    obtain rfl : init = false := by rw [← full, held]; rfl
    exact noneCtor_follows impl regular ends
  | some x =>
    obtain rfl : init = true := by rw [← full, held]; rfl
    simp only [if_true, bind_apply] at ends
    rw [andThen_ok (get_engaged here)] at ends
    exact flatMapped_follows restores regular scalar held ends

theorem perform_follows (scalar : E.isScalar = true → Builtin b) (stmt : Statement α ε) (allowed : Allowed s stmt)
    (unaliased : stmt.Unaliased) (accesses : ∀ op, stmt ≠ .operation op) {threw : Option (Thrown ε)} {t : State α}
    (ends : (perform b E impl stmt s).Ends threw t) :
    b.Follows (stmt.effect R E impl (value s)) (stmt.Remains R impl (value s) ·) threw (value t) := by
  cases stmt with
  | operation op => exact (accesses op rfl).elim
  | value x this cat =>
    obtain ⟨init, here⟩ := allowed
    simp only [perform, Statement.exec, bind_apply] at ends
    unfold andThen at ends
    rw [value_engaged here] at ends
    simp only [Statement.effect, flag_value here]
    cases init with
    | true =>
      exact follows_of (assignT_computes regular (.inl (by simp))) (assignT_restores restores _ _)
        (assignT_raises b _ _) ends
    | false => exact follows_thrown ends
  | getValueOr x this isConst y =>
    obtain ⟨init, here⟩ := allowed
    simp only [perform, Statement.exec, bind_apply] at ends
    rw [andThen_ok (getValueOr_engaged here isConst y)] at ends
    simp only [Statement.effect, flag_value here]
    refine follows_of (assignT_computes regular (.inr ⟨by simp, ?_⟩)) (assignT_restores restores _ _)
      (assignT_raises b _ _) ends
    cases isConst <;> simp
  | valueOr x this isRvalue v =>
    obtain ⟨⟨init, here⟩, _⟩ := allowed
    have run : Accessor.valueOr b impl engaged (.named this) isRvalue v s = _ := valueOr_engaged here isRvalue v
    simp only [Statement.effect, Statement.Remains, flag_value here]
    cases init with
    | true =>
      rw [if_pos rfl, contained_engaged here] at run
      refine produced_follows restores regular (fun _ => id) ?_ ?_ ?_ ends <;> rw [run]
      · exact returned_restores restores _
      · exact returned_raises b _
      · exact returned_computes regular (by simp)
    | false =>
      rw [if_neg (by simp)] at run
      refine produced_follows restores regular (fun _ => id) ?_ ?_ ?_ ends <;> rw [run]
      · exact alternative_restores restores _ _
      · exact alternative_raises b _ _
      · exact alternative_computes regular unaliased
  | valueOrEval x this isRvalue f =>
    obtain ⟨⟨init, here⟩, _⟩ := allowed
    have run : Accessor.valueOrEval b impl engaged (.named this) isRvalue f s = _ := valueOrEval_engaged here isRvalue f
    simp only [Statement.effect, Statement.Remains, flag_value here]
    cases init with
    | true =>
      rw [if_pos rfl, contained_engaged here] at run
      refine produced_follows restores regular (fun _ => id) ?_ ?_ ?_ ends <;> rw [run]
      · exact returned_restores restores _
      · exact returned_raises b _
      · exact returned_computes regular (by simp)
    | false =>
      rw [if_neg (by simp)] at run
      cases supplied : f (value s) with
      | ok v =>
        rw [supplied] at run
        refine produced_follows restores regular (fun _ remains => ?_) ?_ ?_ ?_ ends
        · exact remains.imp id fun same => ⟨v, rfl, same⟩
        all_goals rw [run]
        · exact alternative_restores restores _ _
        · exact alternative_raises b _ _
        · exact alternative_computes regular (unaliased _ _ supplied)
      | error e =>
        rw [supplied] at run
        simp only [perform, Statement.exec, bind_apply] at ends
        rw [andThen_thrown run] at ends
        exact follows_thrown ends
  | map r this cat f =>
    rw [map_perform] at ends
    exact flatMap_follows restores regular scalar allowed ends
  | flatMap r this cat f => exact flatMap_follows restores regular scalar allowed ends

end Restoring

end Spec

/-! ### Programs -/

section Programs

variable {b : Behaviour α (Thrown ε)} {w w' : World α}

theorem answers_raise {trace : List Call} {calls : List (Call × Option ε)} {b : Behaviour α ε}
    (answers : Answers b trace calls) : ∀ e ∈ raised calls, b.Raises e := by
  induction calls generalizing trace with
  | nil => simp [raised]
  | cons call rest ih =>
    obtain ⟨c, threw⟩ := call
    obtain ⟨answered, later⟩ := answers
    intro e member
    rcases List.mem_filterMap.mp member with ⟨event, there, given⟩
    rcases List.mem_cons.mp there with rfl | there
    · rcases answered with ⟨values, replied⟩ | ⟨_, none⟩
      · exact ⟨_, _, values, replied.trans given⟩
      · rw [none] at given
        cases given
    · exact ih later e (List.mem_filterMap.mpr ⟨event, there, given⟩)

/-- An operation throws only what `T` throws. -/
theorem Impl.exec_raises {b : Behaviour α ε} {op : Op} {e : ε} (legal : op.Legal w)
    (ends : (impl.exec E b op w).Ends (some e) w') : b.Raises e := by
  have run : ((Variant.impl impl).system E b).Run w [(op, some e)] w' := .cons legal ends (.nil _)
  obtain ⟨acts, elementary, raises, _⟩ := Variant.run_path run
  obtain ⟨_, answers, same⟩ := elementary_answers elementary
  refine answers_raise answers e ?_
  rw [same, raises]
  exact .head _

theorem Statement.exec_follows (regular : R.Regular E b) (restores : ∀ c, Spec.Restores b c)
    (scalar : E.isScalar = true → Builtin b) (settled : w.Settled) {s : Statement α ε} (legal : s.Legal w)
    (unaliased : s.Unaliased) {threw : Option (Thrown ε)} (ends : ((impl.program E b).exec s w).Ends threw w') :
    b.Follows (s.effect R E impl w.value) (s.Remains R impl w.value ·) threw w'.value := by
  by_cases accesses : ∀ op, s ≠ .operation op
  · have rep := consistent_represents settled.consistent
    have safe := Statement.perform_quiet b E impl settled legal
    have matched := s.exec_implements b E impl legal.fresh w _ rep
    obtain ⟨t, ends', rep'⟩ := (matched.flip (safe.mono (fun _ _ _ => trivial) fun _ _ _ => trivial)).ends ends
    have follows := Spec.perform_follows restores regular scalar s (rep.allowed legal) unaliased accesses ends'
    have before : w.value = Memory.value w.document := rep.value_eq
    have after : w'.value = Memory.value t := rep'.value_eq
    rw [before, after]
    exact follows
  · obtain ⟨op, rfl⟩ : ∃ op, s = .operation op := by simpa using accesses
    cases threw with
    | none => exact .inl (congrArg (·, none) (Impl.exec_computes regular settled legal.1 unaliased ends))
    | some e =>
      exact .inr ⟨rfl, ⟨e, rfl, Impl.exec_raises legal.1 ends⟩,
        Impl.exec_undoes regular restores scalar settled legal.1 legal.2 ends⟩

/-- Programs with accessors, whatever throws. Each statement of a run does what the table of values says,
`bad_optional_access` and the exceptions of functions included, or lets out what `T` threw and leaves the
values that `Statement.Remains` describes. -/
theorem Impl.program_leads {events : List (Statement α ε × Option (Thrown ε))} (regular : R.Regular E b)
    (restores : ∀ c, Spec.Restores b c) (scalar : E.isScalar = true → Builtin b)
    (run : ((impl.program E b).restrict fun s _ => s.Unaliased).Run w events w') (settled : w.Settled) :
    Statement.Leads R E impl b w.value events w'.value := by
  induction run with
  | nil => exact rfl
  | @cons w u w' s threw rest legal ends tail ih =>
    obtain ⟨legal, unaliased⟩ := legal
    have next : u.Settled := ends.holds (Statement.exec_settled settled legal)
    exact ⟨u.value, Statement.exec_follows regular restores scalar settled legal unaliased ends, ih next⟩

end Programs

/-- `optional<int> o0(v); x = std::move(o0).value_or(y);` where the assignment throws, then `x = o0.value();`
and `o0.reset();`, and `x = o0.value();` which throws. -/
theorem Impl.program_leads_valueOr :
    ∃ w : World Int, ((Impl.union false).program (.nontrivial Int)
        (intLike fun calls _ => if calls.length = 2 then some (.user ()) else none)).Run (World.initial fun x => x)
        [(.operation (.valueCtor 0 (.var 7) .lvalue), none),
          (.valueOr 3 0 true ⟨.var 5, .lvalue, .self⟩, some (.user ())), (.value 3 0 .lvalue, none),
          (.operation (.reset 0), none), (.value 4 0 .lvalue, some .badOptionalAccess)] w ∧
      w.value (.var 3) = some 7 ∧ w.value (.var 4) = some 4 := by
  obtain ⟨w, run⟩ : ∃ w : World Int, (((Impl.union false).program (.nontrivial Int)
        (intLike fun calls _ => if calls.length = 2 then some (.user ()) else none)).restrict fun s _ =>
      s.Unaliased).Run (World.initial fun x => x)
        [(.operation (.valueCtor 0 (.var 7) .lvalue), none),
          (.valueOr 3 0 true ⟨.var 5, .lvalue, .self⟩, some (.user ())), (.value 3 0 .lvalue, none),
          (.operation (.reset 0), none), (.value 4 0 .lvalue, some .badOptionalAccess)] w := by
    refine ⟨_, .cons ⟨?_, ?_⟩ ⟨rfl, rfl⟩ (.cons ⟨?_, ?_⟩ ⟨rfl, rfl⟩ (.cons ⟨?_, trivial⟩ ⟨rfl, rfl⟩
      (.cons ⟨?_, ?_⟩ ⟨rfl, rfl⟩ (.cons ⟨?_, trivial⟩ ⟨rfl, rfl⟩ (.nil _)))))⟩
    · exact show (Op.valueCtor 0 (.var 7) .lvalue).Legal _ ∧ _ from ⟨by decide, by decide⟩
    · exact show (Op.valueCtor 0 (.var 7) .lvalue).Unaliased by decide
    · exact show _ ∧ _ from ⟨Option.some_ne_none true, rfl⟩
    · exact show ArgTy.self ≠ .inner by decide
    · exact Option.some_ne_none true
    · exact show (Op.reset 0).Legal _ ∧ _ from ⟨by decide, by decide⟩
    · exact show (Op.reset 0).Unaliased by decide
    · exact Option.some_ne_none false
  obtain ⟨v₁, made, v₂, threw, v₃, assigned, v₄, emptied, v₅, raised, last⟩ :=
    Impl.program_leads (intLike_regular _ _) (intLike_restores _) (intLike_strong _).scalar run
      (World.initial_settled _)
  obtain rfl := made.returned
  rcases threw with table | ⟨_, _, rfl | rfl⟩
  · cases congrArg Prod.snd table
  all_goals
    obtain rfl := assigned.returned
    obtain rfl := emptied.returned
    rcases raised with table | ⟨never, _⟩
    · have computed : w.value = _ := last.trans (congrArg Prod.fst table)
      exact ⟨w, run.unrestrict, by rw [computed]; rfl, by rw [computed]; rfl⟩
    · cases never

end BoostOptional
