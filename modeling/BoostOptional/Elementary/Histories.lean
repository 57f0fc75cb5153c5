import BoostOptional.Elementary.Frame

/-!
The history of a run: the calls of `T`'s operations it made and the exceptions they raised. An
exception that comes out of an operation is one that `T` raised, and none is lost. In the
implementations that begin and end the life of the `T`, the history keeps to the life of each
object: it is constructed before it is used, and destroyed once.
-/

namespace BoostOptional
open Effect Prog Memory

variable {α ε : Type}

/-- The calls among the actions of a run, with the exceptions that they raised, first call first. -/
def callsOf (acts : List (Action × Option ε)) : List (Call × Option ε) :=
  acts.filterMap fun act => act.1.call.map fun c => (c, act.2)

/-- `T`'s answer to a call is the exception, or that there is none. A destructor does not throw. -/
def Answered (b : Behaviour α ε) (trace : List Call) (c : Call) (threw : Option ε) : Prop :=
  (∃ values, (b trace c values).threw = threw) ∨ (∃ dst, c = .destroy dst) ∧ threw = none

/-- The calls were made after those of `trace`, in this order, and `T` answered them so. -/
def Answers (b : Behaviour α ε) (trace : List Call) : List (Call × Option ε) → Prop
  | [] => True
  | (c, threw) :: rest => Answered b trace c threw ∧ Answers b (c :: trace) rest

/-- Whether there is a `T` at `l` after a call, which constructs one only where there is none and
destroys one only where there is one. -/
def stage (l : Loc) (live : Bool) : Call × Option ε → Option Bool
  | (.construct _ dst _, threw) => if dst = l then if live then none else some threw.isNone else some live
  | (.destroy dst, _) => if dst = l then if live then some false else none else some live
  | (.assign .., _) | (.swap .., _) => some live

/-- One call in the life of the `T` at `l`, which is used only while there is one. -/
def lifetime (l : Loc) (live : Bool) (event : Call × Option ε) : Option Bool :=
  if l ∈ event.1.operands ∧ live = false then none else stage l live event

/-- What `l` holds begins and ends its life: it is no variable of the user. -/
def Loc.managed : Loc → Bool
  | .var _ => false
  | _ => true

section Steps

variable {b : Behaviour α ε} {w t : World α} {threw : Option ε}

theorem Action.exec_answered {act : Action} {c : Call} (made : act.call = some c)
    (enabled : act.Enabled w) (ends : (act.exec b w).Ends threw t) : Answered b w.trace c threw := by
  cases act with
  | construct how dst args =>
    cases made
    obtain ⟨_, _, replied, _⟩ := constructT_ends ends
    exact .inl ⟨w.value, replied⟩
  | assign dst v =>
    cases made
    obtain ⟨_, _, replied, _⟩ := assignT_ends ends
    exact .inl ⟨w.value, replied⟩
  | swap x y =>
    cases made
    obtain ⟨_, _, replied, _⟩ := invokeSwap_ends ends
    exact .inl ⟨w.value, replied⟩
  | assignStorage o v =>
    cases made
    obtain ⟨replied, _⟩ := assignStorage_ends ends
    exact .inl ⟨w.value, replied⟩
  | placeStorage o how args =>
    cases made
    obtain ⟨replied, _⟩ := placeStorage_ends ends
    exact .inl ⟨w.value, replied⟩
  | destroy dst =>
    cases made
    obtain ⟨_, quiet, _⟩ := destroyT_ends ends
    exact .inr ⟨⟨dst, rfl⟩, quiet⟩
  | giveUp o =>
    cases made
    obtain ⟨quiet, _⟩ := giveUp_ends enabled ends
    exact .inr ⟨⟨.contained o, rfl⟩, quiet⟩
  | born | setInit | release | leaveStorage | releaseStorage => cases made

/-- An action that calls nothing does not throw. -/
theorem Action.exec_uncalled {act : Action} (uncalled : act.call = none)
    (ends : (act.exec b w).Ends threw t) : threw = none := by
  cases act with
  | born o init => exact (born_ends ends).1
  | setInit | release | leaveStorage | releaseStorage => exact ends.1
  | construct | assign | swap | destroy | giveUp | assignStorage | placeStorage => cases uncalled

theorem elementary_answers {acts : List (Action × Option ε)} (run : (elementary b).Run w acts t) :
    t.trace = ((callsOf acts).map Prod.fst).reverse ++ w.trace ∧ Answers b w.trace (callsOf acts) ∧
      raised (callsOf acts) = raised acts := by
  induction run with
  | nil => exact ⟨rfl, trivial, rfl⟩
  | @cons w u t act threw rest enabled ends tail ih =>
    obtain ⟨trace, answers, same⟩ := ih
    have frame := Action.exec_frame enabled ends
    cases made : act.call with
    | none =>
      have skipped : callsOf ((act, threw) :: rest) = callsOf rest := by simp [callsOf, made]
      have unchanged : u.trace = w.trace := by rw [frame.trace, made]; rfl
      rw [skipped, ← unchanged]
      refine ⟨trace, answers, ?_⟩
      rw [same, Action.exec_uncalled made ends]
      rfl
    | some c =>
      have logged : callsOf ((act, threw) :: rest) = (c, threw) :: callsOf rest := by simp [callsOf, made]
      have grown : u.trace = c :: w.trace := by rw [frame.trace, made]; rfl
      rw [logged]
      refine ⟨?_, ⟨Action.exec_answered made enabled ends, grown ▸ answers⟩, ?_⟩
      · rw [trace, grown]
        simp
      · have one : raised ((c, threw) :: callsOf rest) = threw.toList ++ raised (callsOf rest) := by
          cases threw <;> rfl
        rw [one, same]
        cases threw <;> rfl

/-! ### Lives -/

def World.holds (w : World α) (l : Loc) : Bool := (w.value l).isSome

theorem called_holds {c : Call} (live : ∀ l ∈ c.operands, w.holds l = true) (l : Loc) :
    (w.called b c).holds l = w.holds l := by
  rw [World.holds, World.called, World.called_value]
  split
  · rename_i member
    exact (live l member).symm
  · rfl

theorem place_holds (w : World α) (dst l : Loc) (v : α) :
    (place w dst v).holds l = if l = dst then true else w.holds l := by
  rw [World.holds, World.place_value]
  split <;> rfl

theorem vacate_holds (w : World α) (dst : Loc) (c : Call) {l : Loc} (managed : l.managed = true) :
    (log (vacate w dst) c).holds l = if l = dst then false else w.holds l := by
  rw [World.holds, World.log_value]
  cases dst with
  | contained p =>
    by_cases same : l = .contained p
    · subst same
      simp [vacate, World.vacate, World.value, World.setCell, Cell.value?]
    · rw [if_neg same]
      exact congrArg Option.isSome (w.setCell_value p .vacant same)
  | var x =>
    rw [if_neg fun same => by simp [same, Loc.managed] at managed]
    rfl
  | scratch => cases l <;> rfl

theorem lifetime_used {l : Loc} {c : Call} (live : ∀ l ∈ c.operands, w.holds l = true) :
    lifetime l (w.holds l) (c, threw) = stage l (w.holds l) (c, threw) :=
  if_neg fun dead => by simp [live l dead.1] at dead

theorem lifetime_destroy (l dst : Loc) (live : Bool) :
    lifetime l live (.destroy dst, threw) = stage l live (.destroy dst, threw) :=
  if_neg fun dead => by simp [Call.operands] at dead

theorem Action.uncalled_holds {act : Action} (uncalled : act.call = none) (own : act.onStorage = false)
    (ends : (act.exec b w).Ends threw t) (l : Loc) : t.holds l = w.holds l := by
  cases act with
  | born o init =>
    obtain ⟨_, rfl⟩ := born_ends ends
    exact congrArg Option.isSome (w.setFlag_value o _ l)
  | setInit o init | release o =>
    obtain ⟨_, rfl⟩ := ends
    exact congrArg Option.isSome (w.setFlag_value o _ l)
  | leaveStorage | releaseStorage => cases own
  | construct | assign | swap | destroy | giveUp | assignStorage | placeStorage => cases uncalled

/-- An action moves the `T` at `l` on in its life, or leaves it alone. -/
theorem Action.exec_lifetime {act : Action} {c : Call} (made : act.call = some c) (enabled : act.Enabled w)
    (own : act.onStorage = false) (ends : (act.exec b w).Ends threw t) {l : Loc}
    (managed : l.managed = true) : lifetime l (w.holds l) (c, threw) = some (t.holds l) := by
  cases act with
  | construct how dst args =>
    cases made
    obtain ⟨empty, live, _, ends⟩ := constructT_ends ends
    have operands : ∀ l ∈ (Call.construct how dst args).operands, w.holds l = true := by
      simpa [Call.operands, World.holds] using live
    rw [lifetime_used operands, stage, ends]
    by_cases here : dst = l
    · subst here
      have vacant : w.holds dst = false := by simp [World.holds, empty]
      rw [if_pos rfl, vacant]
      cases threw with
      | none => simp [place_holds]
      | some e => simp [called_holds operands, vacant]
    · rw [if_neg here]
      cases threw with
      | none => simp [place_holds, called_holds operands, Ne.symm here]
      | some e => simp [called_holds operands]
  | assign dst v =>
    cases made
    obtain ⟨liveDst, live, _, rfl⟩ := assignT_ends ends
    have operands : ∀ l ∈ (Call.assign dst v).operands, w.holds l = true := by
      simp [Call.operands, World.holds, liveDst, live]
    rw [lifetime_used operands, called_holds operands]
    rfl
  | swap x y =>
    cases made
    obtain ⟨liveX, liveY, _, rfl⟩ := invokeSwap_ends ends
    have operands : ∀ l ∈ (Call.swap x y).operands, w.holds l = true := by
      simp [Call.operands, World.holds, liveX, liveY]
    rw [lifetime_used operands, called_holds operands]
    rfl
  | destroy dst =>
    cases made
    obtain ⟨live, _, rfl⟩ := destroyT_ends ends
    rw [lifetime_destroy, stage, vacate_holds w dst _ managed]
    by_cases here : dst = l
    · subst here
      simp [World.holds, live]
    · simp [here, Ne.symm here]
  | giveUp o =>
    cases made
    obtain ⟨_, v, cell, rfl⟩ := giveUp_ends enabled ends
    rw [lifetime_destroy, stage]
    by_cases here : Loc.contained o = l
    · subst here
      rw [if_pos rfl, World.holds, World.holds, World.log_value]
      simp [World.value, World.setCell, cell, Cell.value?]
    · have same : (log (w.setCell o (.stale v)) (.destroy (.contained o))).holds l = w.holds l := by
        rw [World.holds, World.log_value, w.setCell_value o _ (Ne.symm here)]
        rfl
      rw [if_neg here, same]
  | assignStorage | placeStorage => cases own
  | born | setInit | release | leaveStorage | releaseStorage => cases made

theorem elementary_lifetime {acts : List (Action × Option ε)} (run : (elementary b).Run w acts t)
    (own : ∀ act ∈ acts, act.1.onStorage = false) {l : Loc} (managed : l.managed = true) :
    (callsOf acts).foldlM (lifetime l) (w.holds l) = some (t.holds l) := by
  induction run with
  | nil => rfl
  | @cons w u t act threw rest enabled ends tail ih =>
    have later := ih fun act member => own act (.tail _ member)
    have first := own _ (.head _)
    cases made : act.call with
    | none =>
      have skipped : callsOf ((act, threw) :: rest) = callsOf rest := by simp [callsOf, made]
      rw [skipped, ← Action.uncalled_holds made first ends, later]
    | some c =>
      have logged : callsOf ((act, threw) :: rest) = (c, threw) :: callsOf rest := by simp [callsOf, made]
      rw [logged, List.foldlM_cons, Action.exec_lifetime made enabled first ends managed]
      exact later

end Steps

/-! ### Runs -/

section Runs

variable {E : Element α} {b : Behaviour α ε}

/-- The exceptions that come out of the operations of a run are those that `T` raised, in the order in
which it raised them: none is swallowed, replaced or added. -/
theorem Variant.run_raises {variant : Variant} {w w' : World α} {events : List (Op × Option ε)}
    (run : (variant.system E b).Run w events w') :
    ∃ calls, w'.trace = (calls.map Prod.fst).reverse ++ w.trace ∧ Answers b w.trace calls ∧
      raised calls = raised events := by
  obtain ⟨acts, elementary, raises, _⟩ := Variant.run_path run
  obtain ⟨trace, answers, same⟩ := elementary_answers elementary
  exact ⟨callsOf acts, trace, answers, same.trans raises⟩

/-- An `emplace` that throws in the middle of a run, in direct storage. -/
theorem Variant.run_raises_emplace :
    ∃ (w : World Int) (calls : List (Call × Option Unit)), ((Variant.direct false).system (.nontrivial Int)
        (intLike fun trace _ => if trace.length = 1 then some () else none)).Run (World.initial fun _ => 1)
          [(.defaultCtor 0, none), (.emplace 0 [⟨.var 0, .rvalue, .self⟩], some ()), (.defaultCtor 1, none)] w ∧
      w.trace = (calls.map Prod.fst).reverse ∧ raised calls = [()] := by
  obtain ⟨w, run⟩ : ∃ w, ((Variant.direct false).system (.nontrivial Int)
        (intLike fun trace _ => if trace.length = 1 then some () else none)).Run (World.initial fun _ => 1)
      [(.defaultCtor 0, none), (.emplace 0 [⟨.var 0, .rvalue, .self⟩], some ()), (.defaultCtor 1, none)] w :=
    ⟨_, .cons (by decide) ⟨rfl, rfl⟩ (.cons (by decide) ⟨rfl, rfl⟩ (.cons (by decide) ⟨rfl, rfl⟩ (.nil _)))⟩
  obtain ⟨calls, trace, _, raises⟩ := Variant.run_raises run
  exact ⟨w, calls, run, by simpa [World.initial] using trace, raises⟩

/-- Whatever throws, each `T` is constructed where there was none, used while it lives, and destroyed
once. At the end of the run those that are left are the values of the optionals. -/
theorem Impl.run_lives {impl : Impl} {var : Nat → α} {w : World α} {events : List (Op × Option ε)}
    (run : impl.SelfFreeRun b E (World.initial var) events w) :
    ∃ calls, w.trace = (calls.map Prod.fst).reverse ∧ Answers b [] calls ∧
      (∀ o, calls.foldlM (lifetime (.contained (.named o))) false = some (w.flag (.named o) == some true)) ∧
      calls.foldlM (lifetime (.contained .temporary)) false = some false ∧
      calls.foldlM (lifetime .scratch) false = some false := by
  have whole : ((Variant.impl impl).system E b).Run (World.initial var) events w := run.unrestrict
  obtain ⟨acts, elementary, _, within⟩ := Variant.run_path whole
  have own : ∀ act ∈ acts, act.1.onStorage = false := by
    intro act member
    obtain ⟨event, _, permits⟩ := within act member
    exact Bool.eq_false_iff.mpr fun stored => Bool.false_ne_true (permits.storage stored)
  obtain ⟨trace, answers, _⟩ := elementary_answers elementary
  have settled := impl.run_settled b E run (World.initial_settled var)
  have lives : ∀ l : Loc, l.managed = true →
      (callsOf acts).foldlM (lifetime l) ((World.initial var).holds l) = some (w.holds l) :=
    fun l managed => elementary_lifetime elementary own managed
  have held : ∀ o, w.holds (.contained o) = (w.flag o == some true) := by
    intro o
    rw [World.holds, Bool.eq_iff_iff, beq_iff_eq]
    exact settled.consistent o
  refine ⟨callsOf acts, by simpa [World.initial] using trace, answers, fun o => ?_, ?_, ?_⟩
  · exact (lives (.contained (.named o)) rfl).trans (congrArg some (held _))
  · refine (lives (.contained .temporary) rfl).trans (congrArg some ?_)
    rw [held, settled.temporary]
    rfl
  · refine (lives .scratch rfl).trans (congrArg some ?_)
    rw [World.holds, World.value, settled.scratch]
    rfl

/-- A value is moved from one optional into another and both are destroyed: nothing is left alive. -/
theorem Impl.run_lives_move :
    ∃ (w : World Int) (calls : List (Call × Option Unit)), (Impl.aligned false).SelfFreeRun (intLike fun _ _ => (none : Option Unit)) (.nontrivial Int)
        (World.initial fun _ => 1) [(.inPlaceCtor 0 [⟨.var 0, .rvalue, .self⟩], none),
          (.defaultCtor 1, none), (.swap 0 1, none), (.destroy 1, none), (.destroy 0, none)] w ∧
      w.trace = (calls.map Prod.fst).reverse ∧
      ∀ o, calls.foldlM (lifetime (.contained (.named o))) false = some (w.flag (.named o) == some true) := by
  obtain ⟨w, run⟩ : ∃ w, (Impl.aligned false).SelfFreeRun (intLike fun _ _ => (none : Option Unit))
        (.nontrivial Int) (World.initial fun _ => 1) [(.inPlaceCtor 0 [⟨.var 0, .rvalue, .self⟩], none),
          (.defaultCtor 1, none), (.swap 0 1, none), (.destroy 1, none), (.destroy 0, none)] w :=
    ⟨_, .cons ⟨by decide, by decide⟩ ⟨rfl, rfl⟩ (.cons ⟨by decide, by decide⟩ ⟨rfl, rfl⟩
      (.cons ⟨by decide, by decide⟩ ⟨rfl, rfl⟩ (.cons ⟨by decide, by decide⟩ ⟨rfl, rfl⟩
        (.cons ⟨by decide, by decide⟩ ⟨rfl, rfl⟩ (.nil _)))))⟩
  obtain ⟨calls, trace, _, lives, _⟩ := Impl.run_lives run
  exact ⟨w, calls, run, trace, lives⟩

end Runs

end BoostOptional
