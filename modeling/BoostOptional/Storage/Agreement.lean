import BoostOptional.Storage.SwapAgreement

/-!
Programs over the direct storage and over the aligned storage of a scalar `T` raise the same
exceptions at the same steps and go through the same flags and values, as long as each step is
`Agreeable`.
-/

namespace BoostOptional
open Effect Prog Memory

variable {α ε : Type}

/-- The step does none of the three things that the storages do differently. -/
def Agreeable (b : Behaviour α ε) (op : Op) (s : World α) : Prop :=
  match op with
  | .emplace this args => s.flag (.named this) = some true → (reply b .direct args s).threw = none
  | .assignFactory this typed args =>
    s.flag (.named this) = some true → (reply b (factoryInit typed) args s).threw = none
  | .assignFromU this src cat => s.flag (.named this) = some true →
    Reply.Same [⟨src, cat, .other⟩] (reply b .direct [⟨src, cat, .other⟩] s)
    (reply b .implicit [⟨src, cat, .other⟩] s)
  | .copyCtor _ rhs | .moveCtor _ rhs | .copyAssign _ rhs | .moveAssign _ rhs =>
    (s.value (.contained (.named rhs))).isSome = true
  | _ => True

/-- What the caller of an operation may pass: nothing that an optional does not show, and to an
`emplace` or a factory nothing that the target holds. -/
def WellPassed (op : Op) (s : World α) : Prop := op.SelfFree ∧ ∀ l ∈ op.sources, Visible s l

/-- The storages of two runs in step. -/
structure InStep (s t : World α) : Prop where
  similar : Similar s t
  settled : t.Settled

section Steps

variable {s t : World α} {b : Behaviour α ε}

theorem InStep.legal (related : InStep s t) {op : Op} (legal : op.Legal s)
    (passed : WellPassed op s) : op.Legal t := by
  obtain ⟨creates, objects, sources⟩ := legal
  refine ⟨fun o new => ?_, fun o old => ?_, fun l given => ?_⟩
  · rw [← related.similar.flag, creates o new]
  · rw [← related.similar.flag]
    exact objects o old
  · rw [← related.similar.value l (passed.2 l given)]
    exact sources l given

variable (conversions : Conversions b)

include conversions in
theorem exec_match (useDefault : Bool) (related : InStep s t) {op : Op} (legal : op.Legal s)
    (passed : WellPassed op s)
    (agreeable : Agreeable b op s) :
    (Direct.exec b useDefault op s).Match Similar (Aligned.exec b useDefault op t) := by
  obtain ⟨creates, objects, sources⟩ := legal
  obtain ⟨free, visible⟩ := passed
  obtain ⟨similar, settled⟩ := related
  have given : ∀ args : List Arg, args.map Arg.loc ⊆ op.sources → Passed s args :=
    fun args among v member =>
    ⟨visible _ (among (List.mem_map_of_mem member)), sources _ (among (List.mem_map_of_mem member))⟩
  cases op with
  | defaultCtor o | noneCtor o =>
    exact emptyCtor_match similar settled conversions (creates _ (.head _))
  | valueCtor o src cat =>
    exact valueCtor_match similar settled conversions (creates _ (.head _)) rfl
      (given [⟨src, cat, .self⟩] fun _ => id)
  | condCtor o cond src cat =>
    exact condCtor_match similar settled conversions cond (creates _ (.head _)) rfl
      (given [⟨src, cat, .self⟩] fun _ => id)
  | inPlaceCtor o args =>
    exact inPlaceCtor_match similar settled conversions (creates _ (.head _)) (given args fun _ => id)
  | inPlaceIfCtor o cond args =>
    exact inPlaceIfCtor_match similar settled conversions cond (creates _ (.head _))
      (given args fun _ => id)
  | copyCtor o rhs | moveCtor o rhs =>
    exact memberwiseCtor_match similar settled conversions _ (creates _ (.head _))
      (objects _ (.head _)) agreeable
  | convCopyCtor o rhs | convMoveCtor o rhs =>
    exact convCtor_match similar settled conversions _ (creates _ (.head _)) (objects _ (.head _))
  | factoryCtor o typed args =>
    exact factoryCtor_match similar settled conversions _ (creates _ (.head _)) (given args fun _ => id)
  | exprCtor o src cat =>
    exact inPlaceCtor_match similar settled conversions (creates _ (.head _))
      (given [⟨src, cat, .other⟩] fun _ => id)
  | assignNone this | reset this => exact destroy_match similar settled (objects _ (.head _))
  | assignFromT this src cat =>
    exact assign_match similar settled conversions (objects _ (.head _)) rfl
      (given [⟨src, cat, .self⟩] fun _ => id)
  | resetValue this src =>
    exact assign_match similar settled conversions (objects _ (.head _)) rfl
      (given [⟨src, .constLvalue, .self⟩] fun _ => id)
  | assignFromU this src cat =>
    exact assignFromU_match similar settled conversions (v := ⟨src, cat, .other⟩)
      (objects _ (.head _)) nofun
      (given [⟨src, cat, .other⟩] fun _ => id) agreeable
  | copyAssign this rhs | moveAssign this rhs =>
    exact memberwiseAssign_match similar settled conversions _ (objects _ (.head _))
      (objects _ (.tail _ (.head _)))
      agreeable
  | convCopyAssign this rhs | convMoveAssign this rhs =>
    exact convAssign_match similar settled conversions _ (objects _ (.head _))
      (objects _ (.tail _ (.head _)))
  | assignFactory this typed args =>
    exact assignFactory_match similar settled conversions _ (objects _ (.head _))
      (given args fun _ => id) free agreeable
  | emplace this args =>
    exact emplace_match similar settled conversions (objects _ (.head _))
      (given args fun _ => id) free agreeable
  | swap x y =>
    exact swap_match conversions useDefault similar settled (objects _ (.head _))
      (objects _ (.tail _ (.head _)))
  | destroy o => exact destructor_match similar settled (objects _ (.head _))

end Steps

/-! ### Runs -/

theorem initial_inStep (var : Nat → α) : InStep (World.initial var) (World.initial var) where
  similar := ⟨rfl, fun _ _ => rfl, rfl, rfl⟩
  settled := World.initial_settled var

/-- The programs over the direct storage whose steps are all agreeable. -/
abbrev Direct.agreeableSystem (b : Behaviour α ε) (useDefault : Bool) : System (World α) ε Fault Op :=
  (Direct.system b useDefault).restrict fun op s => WellPassed op s ∧ Agreeable b op s

theorem Direct.run_inStep (E : Element α) {b : Behaviour α ε} (conversions : Conversions b)
    (useDefault : Bool)
    {s s' t : World α} {events : List (Op × Option ε)}
    (run : (Direct.agreeableSystem b useDefault).Run s events s')
    (related : InStep s t) :
    ∃ t', ((Impl.aligned useDefault).system E b).Run t events t' ∧ InStep s' t' := by
  refine System.Run.simulate ?_ run related
  intro op u v related legal
  obtain ⟨legal, passed, agreeable⟩ := legal
  have legal' := related.legal legal passed
  have safe := (Impl.aligned useDefault).exec_settled b E related.settled legal' passed.1
  refine ⟨legal', safe.mono (fun _ _ _ => trivial) (fun _ _ _ => trivial), ?_⟩
  exact ((exec_match conversions useDefault related legal passed agreeable).strengthen safe).mono
    fun _ _ both => ⟨both.1, both.2⟩

theorem InStep.exec_ok (E : Element α) {b : Behaviour α ε} (conversions : Conversions b)
    (useDefault : Bool)
    {s t : World α} (related : InStep s t) {op : Op} (legal : op.Legal s) (passed : WellPassed op s)
    (agreeable : Agreeable b op s) :
    (Direct.exec b useDefault op s).Holds (fun _ _ => True) (fun _ _ => True) := by
  have safe :=
    (Impl.aligned useDefault).exec_settled b E related.settled (related.legal legal passed) passed.1
  have matched := exec_match conversions useDefault related legal passed agreeable
  exact (matched.holds safe).mono (fun _ _ _ => trivial) (fun _ _ _ => trivial)

/-- The aligned storage goes through the same steps with the same exceptions, and no step that may
follow goes wrong. -/
theorem Direct.run_agrees (E : Element α) {b : Behaviour α ε} (conversions : Conversions b)
    (useDefault : Bool)
    {var : Nat → α} {s : World α} {events : List (Op × Option ε)}
    (run : (Direct.agreeableSystem b useDefault).Run (World.initial var) events s) :
    (∃ t, ((Impl.aligned useDefault).system E b).Run (World.initial var) events t ∧ s.flag = t.flag ∧
      ∀ o, s.flag o = some true → ∃ v, s.value (.contained o) = some v ∧
      t.value (.contained o) = some v) ∧
    ∀ op : Op, op.Legal s → WellPassed op s → Agreeable b op s →
      (Direct.exec b useDefault op s).Holds (fun _ _ => True) (fun _ _ => True) := by
  obtain ⟨t, run', related⟩ := Direct.run_inStep E conversions useDefault run (initial_inStep var)
  refine ⟨⟨t, run', related.similar.flag, fun o full => ?_⟩, fun op =>
    related.exec_ok E conversions useDefault⟩
  have full' : t.flag o = some true := related.similar.flag ▸ full
  obtain ⟨v, held⟩ := Option.isSome_iff_exists.mp (settled_live related.settled full')
  exact ⟨v, (related.similar.value (.contained o) full).trans held, held⟩

/-! ### A schedule of conversions that throw -/

/-- Conversions throw by what has been converted before. -/
def conversionFails (fails : List (Init × List Arg) → Option ε) (trace : List Call) : Call → Option ε
  | .construct how _ args => if builtin how args then none else fails (history trace)
  | _ => none

theorem intLike_conversions (fails : List (Init × List Arg) → Option ε) :
    Conversions (intLike (conversionFails fails)) where
  scalar := {
    construct := by
      intro trace values dst v x self held
      simp [intLike, conversionFails, builtin, self, held]
    initial := fun _ _ _ => rfl
    assign := by
      intro trace values dst v x self held
      simp [intLike, conversionFails, held]
    swap := by
      intro trace values x y v u heldX heldY
      refine ⟨rfl, by simp [intLike, conversionFails, heldY], ?_⟩
      by_cases same : y = x
      · subst same
        simp [intLike, conversionFails, Option.some.inj (heldX.symm.trans heldY), heldY]
      · simp [intLike, conversionFails, same, heldX] }
  construct := by
    intro trace trace' values values' how dst dst' args past same
    have held : ∀ v ∈ args, values v.loc = values' v.loc := fun v given => (same v given).1
    have first : args.head?.map (fun v => (values v.loc).getD 0) = args.head?.map fun v =>
      (values' v.loc).getD 0 := by
      cases args with
      | nil => rfl
      | cons v rest => simp [held v (.head _)]
    simp only [Reply.Same, intLike, conversionFails, past]
    split
    · exact ⟨rfl, rfl, fun v given => congrArg (fun y => y.getD 0) (held v given)⟩
    · exact ⟨rfl, by rw [first], fun v given => congrArg (fun y => y.getD 0) (held v given)⟩

theorem var_visible (s : World α) (x : Nat) : ∀ l ∈ [Loc.var x], Visible s l := by
  intro l given
  rw [List.mem_singleton.mp given]
  trivial

/-- `optional<int> a(x), b; b.emplace(u); a = u;` where each conversion from `u` throws. -/
theorem Direct.run_agrees_throwing :
    ∃ s t, (Direct.agreeableSystem (intLike (conversionFails fun _ => some ())) false).Run
      (World.initial fun _ => 1)
        [(.valueCtor 0 (.var 0) .lvalue, none), (.defaultCtor 1, none),
          (.emplace 1 [⟨.var 1, .rvalue, .other⟩], some ()),
          (.assignFromU 0 (.var 1) .rvalue, some ())] s ∧
      ((Impl.aligned false).system (.nontrivial Int) (intLike (conversionFails fun _ => some ()))).Run
        (World.initial fun _ => 1)
        [(.valueCtor 0 (.var 0) .lvalue, none), (.defaultCtor 1, none),
          (.emplace 1 [⟨.var 1, .rvalue, .other⟩], some ()),
          (.assignFromU 0 (.var 1) .rvalue, some ())] t ∧
      s.flag = t.flag := by
  obtain ⟨s, run⟩ : ∃ s, (Direct.agreeableSystem (intLike (conversionFails fun _ => some ())) false).Run
      (World.initial fun _ => 1)
      [(.valueCtor 0 (.var 0) .lvalue, none), (.defaultCtor 1, none),
        (.emplace 1 [⟨.var 1, .rvalue, .other⟩], some ()),
        (.assignFromU 0 (.var 1) .rvalue, some ())] s :=
    ⟨_, .cons ⟨show Op.Legal _ _ by decide, ⟨trivial, var_visible _ 0⟩, trivial⟩ ⟨rfl, rfl⟩
      (.cons ⟨show Op.Legal _ _ by decide, ⟨trivial, nofun⟩, trivial⟩ ⟨rfl, rfl⟩
      (.cons ⟨show Op.Legal _ _ by decide, ⟨by decide, var_visible _ 1⟩, fun full => by cases full⟩
        ⟨rfl, rfl⟩
      (.cons ⟨show Op.Legal _ _ by decide, ⟨trivial, var_visible _ 1⟩, fun _ => ⟨rfl, rfl, fun _ _ => rfl⟩⟩ ⟨rfl, rfl⟩
      (.nil _))))⟩
  obtain ⟨t, run', flags, -⟩ :=
    (Direct.run_agrees (.nontrivial Int) (intLike_conversions _) false run).1
  exact ⟨s, t, run, run', flags⟩

/-- `optional<int> a(x); a.emplace(u);` where the conversion throws: only the aligned storage has
given up the value of `a`. -/
theorem emplace_throws_disagrees :
    ∃ s, ((Direct.system (intLike (conversionFails fun _ => some ())) false).restrict WellPassed).Run
        (World.initial fun _ => 1)
        [(.valueCtor 0 (.var 0) .lvalue, none), (.emplace 0 [⟨.var 1, .rvalue, .other⟩], some ())] s ∧
      ∀ t, ((Impl.aligned false).system (.nontrivial Int)
        (intLike (conversionFails fun _ => some ()))).Run
        (World.initial fun _ => 1)
        [(.valueCtor 0 (.var 0) .lvalue, none), (.emplace 0 [⟨.var 1, .rvalue, .other⟩], some ())] t →
        s.flag (.named 0) = some true ∧ t.flag (.named 0) = some false := by
  refine ⟨_, .cons ⟨show Op.Legal _ _ by decide, trivial, var_visible _ 0⟩ ⟨rfl, rfl⟩
    (.cons ⟨show Op.Legal _ _ by decide, by decide, var_visible _ 1⟩ ⟨rfl, rfl⟩ (.nil _)),
    fun t run => ⟨rfl, ?_⟩⟩
  cases run with
  | cons _ first rest =>
    obtain ⟨_, rfl⟩ := first
    cases rest with
    | cons _ second last =>
      obtain ⟨_, rfl⟩ := second
      cases last
      rfl

end BoostOptional
