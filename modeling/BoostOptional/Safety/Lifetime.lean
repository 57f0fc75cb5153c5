import BoostOptional.Safety.Actions

/-!
The flag of every optional tells whether a `T` lives in its storage, in every state that a program
can reach, whatever throws. The operations keep this, and none of them touches a `T` that is not
live or constructs one over a live one: those are the faults of the model.
-/

namespace BoostOptional
open Effect Prog Memory

variable {α ε : Type} (b : Behaviour α ε)

namespace Spec

variable {s : State α}

/-- Between two operations there are no temporaries. -/
def Occupancy.Quiet (k : Occupancy) : Prop := k.scratch = false ∧ k.flag .temporary = none

theorem Occupancy.Quiet.set {k : Occupancy} (quiet : k.Quiet) (o : Nat) (init : Option Bool) :
    (k.set (.named o) init).Quiet :=
  ⟨quiet.1, by rw [Occupancy.set_other k init (by nofun), quiet.2]⟩

theorem Occupancy.Quiet.apart {k k' : Occupancy} (quiet : k.Quiet) {x y : Nat}
    (apart : k.Apart k' (.named x) (.named y)) : k'.Quiet :=
  ⟨apart.1.trans quiet.1, (apart.2 .temporary nofun nofun).trans quiet.2⟩

def State.Quiet (s : State α) : Prop := s.occupancy.Quiet

theorem quiet_holds (quiet : s.Quiet) {o : Nat} {init : Option Bool} {strong : Prop}
    {outcome : Outcome (State α) ε Fault Unit}
    (runs : outcome.Holds (fun _ t => t.occupancy = s.occupancy.set (.named o) init)
      (fun _ t => Undone strong s t)) :
    outcome.Holds (fun _ => State.Quiet) (fun _ => State.Quiet) := by
  refine runs.mono (fun _ t done => ?_) (fun _ t undone => ?_)
  · rw [State.Quiet, done]
    exact quiet.set o init
  · rw [State.Quiet, undone.1]
    exact quiet

theorem apart_quiet_holds (quiet : s.Quiet) {x y : Nat} {outcome : Outcome (State α) ε Fault Unit}
    (runs : outcome.Holds (fun _ t => s.occupancy.Apart t.occupancy (.named x) (.named y))
      (fun _ t => s.occupancy.Apart t.occupancy (.named x) (.named y))) :
    outcome.Holds (fun _ => State.Quiet) (fun _ => State.Quiet) :=
  runs.mono (fun _ _ apart => Occupancy.Quiet.apart quiet apart)
    (fun _ _ apart => Occupancy.Quiet.apart quiet apart)

def Legal (op : Op) (k : Occupancy) : Prop :=
  (∀ o ∈ op.creates, k.flag o = none) ∧ (∀ o ∈ op.objects, ∃ init, k.flag o = some init) ∧
    ∀ l ∈ op.sources, k.live l = true

theorem style_assignFromT_holds {strong : Prop} {E : Element α} (restores : strong → Strong E b)
    (impl : Impl) {this : Nat} {src : Loc} {cat : Cat}
    {init : Bool} (quiet : s.Quiet) (here : s.occupancy.flag (.named this) = some init)
    (live : s.occupancy.live src = true) :
    ((style b E impl).assignFromT (.named this) ⟨src, cat, .self⟩ s).Holds
      (fun _ t => ∃ has, t.occupancy = s.occupancy.set (.named this) (some has))
      (fun _ t => Undone strong s t) := by
  cases impl with
  | union _ =>
    exact unionAssignFromT_holds b strong restores quiet.1 (by nofun) quiet.2 here live rfl
  | aligned _ =>
    exact (assignValue_holds b strong restores (p := .bound) (q := .bound)
        (v := ⟨src, cat, .self⟩) quiet.1 here live fun _ => ⟨rfl, rfl⟩).mono
      (fun _ _ done => ⟨true, done⟩) (fun _ _ undone => undone)

theorem style_swap_holds (E : Element α) (impl : Impl) {x y : ObjId} {hasX hasY : Bool}
    (hereX : s.occupancy.flag x = some hasX) (hereY : s.occupancy.flag y = some hasY) :
    ((style b E impl).swap x y s).Holds (fun _ t => s.occupancy.Apart t.occupancy x y)
      (fun _ t => s.occupancy.Apart t.occupancy x y) := by
  cases impl with
  | union _ => exact swap_holds b hereX hereY
  | aligned useDefault =>
    cases useDefault with
    | false => exact swap_holds b hereX hereY
    | true => exact swapDefault_holds b hereX hereY

/-- No legal operation faults, whether it returns or throws, and no temporary is left. -/
theorem exec_quiet (E : Element α) (impl : Impl) {op : Op} (quiet : s.Quiet)
    (legal : Legal op s.occupancy)
    (free : op.SelfFree) :
    (exec b (style b E impl) op s).Holds (fun _ => State.Quiet) (fun _ => State.Quiet) := by
  obtain ⟨creates, objects, sources⟩ := legal
  have none : False → Strong E b := nofun
  cases op with
  | defaultCtor o | noneCtor o =>
    exact quiet_holds quiet (appear_occupancy (E := fun _ => Undone False s) (creates _ (.head _)))
  | valueCtor o src cat =>
    exact quiet_holds quiet (newValue_holds b False none quiet.1 (creates _ (.head _))
      (sources _ (.head _)) nofun)
  | condCtor o cond src cat =>
    cases cond with
    | true =>
      exact quiet_holds quiet
        (newValue_holds b False none quiet.1 (creates _ (.head _)) (sources _ (.head _)) nofun)
    | false => exact quiet_holds quiet (newEmpty_holds False (creates _ (.head _)))
  | inPlaceCtor o args | factoryCtor o typed args =>
    exact quiet_holds quiet (newInPlace_holds b (creates _ (.head _)) fun v member =>
      sources _ (List.mem_map_of_mem member))
  | inPlaceIfCtor o cond args =>
    cases cond with
    | true =>
      exact quiet_holds quiet (newInPlace_holds b (creates _ (.head _)) fun v member =>
        sources _ (List.mem_map_of_mem member))
    | false => exact quiet_holds quiet (newEmpty_holds False (creates _ (.head _)))
  | copyCtor o rhs | moveCtor o rhs | convCopyCtor o rhs | convMoveCtor o rhs =>
    obtain ⟨init, here⟩ := objects _ (.head _)
    exact quiet_holds quiet (newFrom_holds b False none quiet.1 (creates _ (.head _)) here nofun)
  | exprCtor o src cat =>
    exact quiet_holds quiet (newInPlace_holds b (creates _ (.head _)) fun v member =>
      sources _ (by simpa [Op.sources] using congrArg Arg.loc (List.mem_singleton.mp member)))
  | assignNone this | reset this =>
    obtain ⟨init, here⟩ := objects _ (.head _)
    exact quiet_holds quiet (clear_holds (E := fun _ => Undone False s) here)
  | assignFromT this src cat | resetValue this src =>
    obtain ⟨init, here⟩ := objects _ (.head _)
    refine (style_assignFromT_holds b none impl quiet here (sources _ (.head _))).mono
      (fun _ t done => ?_) (fun _ t undone => ?_)
    · obtain ⟨has, done⟩ := done
      rw [State.Quiet, done]
      exact quiet.set _ _
    · rw [State.Quiet, undone.1]
      exact quiet
  | assignFromU this src cat =>
    obtain ⟨init, here⟩ := objects _ (.head _)
    exact quiet_holds quiet (assignValue_holds b False none quiet.1 here (sources _ (.head _)) nofun)
  | copyAssign this rhs | moveAssign this rhs | convCopyAssign this rhs | convMoveAssign this rhs =>
    obtain ⟨init, here⟩ := objects _ (.head _)
    obtain ⟨has, there⟩ := objects _ (.tail _ (.head _))
    exact quiet_holds quiet (assignFrom_holds b False none quiet.1 here (engaged_holds there)
      (fun full => by simp [Occupancy.live, there, full]) nofun)
  | assignFactory this typed args | emplace this args =>
    obtain ⟨init, here⟩ := objects _ (.head _)
    refine (emplace_holds b _ here (fun v member => sources _ (List.mem_map_of_mem member)) free).mono
      (fun _ t done => ?_) (fun _ t emptied => ?_)
    · rw [State.Quiet, done]
      exact quiet.set _ _
    · rw [State.Quiet, emptied]
      exact quiet.set _ _
  | swap x y =>
    obtain ⟨hasX, hereX⟩ := objects _ (.head _)
    obtain ⟨hasY, hereY⟩ := objects _ (.tail _ (.head _))
    exact apart_quiet_holds quiet (style_swap_holds b E impl hereX hereY)
  | destroy o =>
    obtain ⟨init, here⟩ := objects _ (.head _)
    exact quiet_holds quiet (destroy_holds (E := fun _ => Undone False s) here)

end Spec

/-! ### The implementations -/

/-- The flags are right, and there are no temporaries. -/
structure World.Settled (w : World α) : Prop where
  consistent : w.Consistent
  scratch : w.scratch = none
  temporary : w.flag .temporary = none

/-- Where a program starts: its variables, and no optional. -/
def World.initial (var : Nat → α) : World α where
  flag _ := none
  cell _ := .vacant
  var := var
  scratch := none
  trace := []

theorem World.initial_settled (var : Nat → α) : (World.initial var).Settled where
  consistent _ := ⟨nofun, nofun⟩
  scratch := rfl
  temporary := rfl

theorem World.Settled.document_quiet {w : World α} (settled : w.Settled) : w.document.Quiet := by
  refine ⟨?_, ?_⟩
  · simp [Spec.State.occupancy, World.document, settled.scratch]
  · simp [Spec.State.occupancy, World.document, settled.temporary]

theorem Represents.flag_eq {w : World α} {s : Spec.State α} (rep : Represents w s) (o : ObjId) :
    w.flag o = s.occupancy.flag o := rep.flag o

theorem Represents.settled {w : World α} {s : Spec.State α} (rep : Represents w s) (quiet : s.Quiet) :
    w.Settled where
  consistent := rep.consistent
  scratch := by simpa [rep.scratch, Spec.State.occupancy] using quiet.1
  temporary := by rw [rep.flag_eq]; exact quiet.2

theorem Represents.legal {w : World α} {s : Spec.State α} (rep : Represents w s) {op : Op}
    (legal : op.Legal w) :
    Spec.Legal op s.occupancy := by
  obtain ⟨creates, objects, sources⟩ := legal
  refine ⟨fun o member => ?_, fun o member => ?_, fun l member => ?_⟩
  · rw [← rep.flag_eq, creates o member]
  · rw [← rep.flag_eq]
    exact Option.ne_none_iff_exists'.mp (objects o member)
  · rw [← Spec.value_isSome, ← rep.value_eq]
    exact sources l member

theorem Op.Legal.fresh {op : Op} {w : World α} (legal : op.Legal w) :
    ∀ o ∈ op.creates, o ∉ op.objects :=
  fun o new old => legal.2.1 o old (legal.1 o new)

/-- Every exit of every operation leaves the flags right. -/
theorem Impl.exec_settled (E : Element α) (impl : Impl) {op : Op} {w : World α} (settled : w.Settled)
    (legal : op.Legal w) (free : op.SelfFree) :
    (impl.exec E b op w).Holds (fun _ => World.Settled) (fun _ => World.Settled) := by
  have rep := consistent_represents settled.consistent
  have safe := Spec.exec_quiet b E impl settled.document_quiet (rep.legal legal) free
  have matched := impl.exec_implements E b op legal.fresh w _ rep
  refine (matched.holds safe).mono (fun _ u after => ?_) (fun _ u after => ?_) <;>
    obtain ⟨t, represents, quiet⟩ := after <;> exact represents.settled quiet

/-- The runs of a program that passes no `emplace` or factory a reference into its target. -/
abbrev Impl.SelfFreeRun (E : Element α) (impl : Impl) :
    World α → List (Op × Option ε) → World α → Prop :=
  ((impl.system E b).restrict fun op _ => op.SelfFree).Run

theorem Impl.run_settled (E : Element α) (impl : Impl) {w w' : World α} {events : List (Op × Option ε)}
    (run : impl.SelfFreeRun b E w events w') (settled : w.Settled) : w'.Settled := by
  refine System.Run.invariant (I := World.Settled) ?_ run settled
  intro op u legal before
  exact impl.exec_settled b E before legal.1 legal.2

theorem Impl.run_lifetime (E : Element α) (impl : Impl) {var : Nat → α} {w : World α}
    {events : List (Op × Option ε)} (run : impl.SelfFreeRun b E (World.initial var) events w) :
    w.Consistent ∧ ∀ op : Op, op.Legal w → op.SelfFree →
      (impl.exec E b op w).Holds (fun _ => World.Consistent) (fun _ => World.Consistent) := by
  have settled := impl.run_settled b E run (World.initial_settled var)
  refine ⟨settled.consistent, fun op legal free => ?_⟩
  exact (impl.exec_settled b E settled legal free).mono (fun _ _ after => after.consistent)
    (fun _ _ after => after.consistent)

/-- `optional<T> o; o.emplace(x);` where the constructor of the `emplace` throws. -/
theorem Impl.run_lifetime_emplace_throws :
    ∃ w, (Impl.union false).SelfFreeRun (intLike fun _ _ => some ()) (.nontrivial Int)
      (World.initial fun _ => 1)
        [(.defaultCtor 0, none), (.emplace 0 [⟨.var 0, .rvalue, .self⟩], some ())] w ∧
        w.Consistent := by
  obtain ⟨w, run⟩ : ∃ w, (Impl.union false).SelfFreeRun (intLike fun _ _ => some ()) (.nontrivial Int)
      (World.initial fun _ => 1)
      [(.defaultCtor 0, none), (.emplace 0 [⟨.var 0, .rvalue, .self⟩], some ())] w :=
    ⟨_, .cons ⟨by decide, by decide⟩ ⟨rfl, rfl⟩ (.cons ⟨by decide, by decide⟩ ⟨rfl, rfl⟩ (.nil _))⟩
  exact ⟨w, run, (Impl.run_lifetime _ _ _ run).1⟩

/-- `o.emplace(*o)` destroys the value and then constructs from it. -/
theorem emplace_own_value_faults :
    ¬ ∀ (E : Element Int) (b : Behaviour Int Unit) (impl : Impl) (var : Nat → Int) (w : World Int)
        (events : List (Op × Option Unit)), (impl.system E b).Run (World.initial var) events w →
        w.Consistent ∧ ∀ op : Op, op.Legal w →
          (impl.exec E b op w).Holds (fun _ => World.Consistent) (fun _ => World.Consistent) := by
  intro every
  obtain ⟨w, run, legal, faults⟩ : ∃ w, ((Impl.union false).system (.nontrivial Int)
    (intLike fun _ _ => none)).Run
      (World.initial fun _ => 1) [(.inPlaceCtor 0 [⟨.var 0, .rvalue, .self⟩], (none : Option Unit))] w ∧
      (Op.emplace 0 [⟨.contained (.named 0), .constLvalue, .self⟩]).Legal w ∧
      ∃ reason, (Impl.union false).exec (.nontrivial Int) (intLike fun _ _ => (none : Option Unit))
        (.emplace 0 [⟨.contained (.named 0), .constLvalue, .self⟩]) w = .fault reason :=
    ⟨_, .cons (by decide) ⟨rfl, rfl⟩ (.nil _), by decide, _, rfl⟩
  have safe := (every _ _ _ _ _ _ run).2 _ legal
  obtain ⟨reason, faults⟩ := faults
  rw [faults] at safe
  exact safe

end BoostOptional
