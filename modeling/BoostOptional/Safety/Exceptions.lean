import BoostOptional.Safety.Lifetime

/-!
What an operation that throws leaves behind. Assignment leaves the flags as they were, and the
values too when the element type does. Emplacement has destroyed the old value by then. A
constructor leaves no object.
-/

namespace BoostOptional
open Effect Prog Memory

variable {α ε : Type} (b : Behaviour α ε)

namespace Op

/-- Assignment from a value or from an optional, and `reset(v)`. -/
def assigns : Op → Bool
  | assignFromT .. | assignFromU .. | copyAssign .. | moveAssign .. | convCopyAssign ..
  | convMoveAssign .. | resetValue .. => true
  | _ => false

/-- The source is a `T` or an `optional<T>`. -/
def fromOwn : Op → Bool
  | assignFromT .. | copyAssign .. | moveAssign .. | resetValue .. => true
  | _ => false

/-- The target of an `emplace` or of an assignment from a factory. -/
def replaces : Op → Option Nat
  | emplace this _ | assignFactory this _ _ => some this
  | _ => none

/-- The new object and the source of a constructor from an optional. -/
def copies : Op → Option (Nat × Nat)
  | copyCtor o rhs | moveCtor o rhs | convCopyCtor o rhs | convMoveCtor o rhs => some (o, rhs)
  | _ => none

end Op

namespace Spec

variable {s : State α} {E : Element α}

theorem style_passing_own (impl : Impl) : (style b E impl).passing.own .self := by
  cases impl with
  | union _ => exact nofun
  | aligned _ => rfl

theorem assigns_undone (strong : Prop) (impl : Impl) {op : Op} (assigns : op.assigns = true)
    (restores : strong → Strong E b ∧ op.fromOwn = true) (quiet : s.Quiet)
    (legal : Legal op s.occupancy) :
    (exec b (style b E impl) op s).Holds (fun _ _ => True) (fun _ t => Undone strong s t) := by
  obtain ⟨creates, objects, sources⟩ := legal
  have strongly : strong → Strong E b := fun given => (restores given).1
  cases op <;> simp only [Op.assigns, Bool.false_eq_true] at assigns
  case assignFromT this src cat | resetValue this src =>
    obtain ⟨init, here⟩ := objects _ (.head _)
    exact (style_assignFromT_holds b strongly impl quiet here (sources _ (.head _))).mono
      (fun _ _ _ => trivial) (fun _ _ undone => undone)
  case assignFromU this src cat =>
    obtain ⟨init, here⟩ := objects _ (.head _)
    refine (assignValue_holds b strong strongly quiet.1 here (sources _ (.head _)) ?_).mono
      (fun _ _ _ => trivial) (fun _ _ undone => undone)
    exact fun given => absurd (restores given).2 Bool.false_ne_true
  case copyAssign this rhs | moveAssign this rhs =>
    obtain ⟨init, here⟩ := objects _ (.head _)
    obtain ⟨has, there⟩ := objects _ (.tail _ (.head _))
    exact (assignFrom_holds b strong strongly quiet.1 here (engaged_holds there)
      (fun full => by simp [Occupancy.live, there, full]) (fun _ => style_passing_own b impl)).mono
      (fun _ _ _ => trivial) (fun _ _ undone => undone)
  case convCopyAssign this rhs | convMoveAssign this rhs =>
    obtain ⟨init, here⟩ := objects _ (.head _)
    obtain ⟨has, there⟩ := objects _ (.tail _ (.head _))
    refine (assignFrom_holds b strong strongly quiet.1 here (engaged_holds there)
      (fun full => by simp [Occupancy.live, there, full]) ?_).mono
      (fun _ _ _ => trivial) (fun _ _ undone => undone)
    exact fun given => absurd (restores given).2 Bool.false_ne_true

def destructions (calls : List Call) (o : ObjId) : Nat := calls.count (.destroy (.contained o))

theorem clear_destructions {o : ObjId} {init : Bool} (here : s.occupancy.flag o = some init)
    {t : State α}
    (cleared : (clear o : Doc α ε Unit) s = .ok () t) :
    destructions t.trace o = destructions s.trace o + if init then 1 else 0 := by
  have mapped : (s.content o).map Option.isSome = some init := here
  cases content : s.content o with
  | none => simp [content] at mapped
  | some c =>
    simp only [content, Option.map_some, Option.some.injEq] at mapped
    subst mapped
    cases c with
    | none =>
      simp only [clear, content, Outcome.ok.injEq, true_and] at cleared
      simp [cleared]
    | some v =>
      have live : (value s (.contained o)).isSome = true := by simp [value, State.value, content]
      simp only [clear, content, destroyT_live live, Outcome.ok.injEq, true_and] at cleared
      subst cleared
      exact List.count_cons_self

theorem create_destructions {how : Init} {o : ObjId} {args : List Arg} {e : ε} {t : State α}
    (threw : create b how o args s = .thrown e t) :
    destructions t.trace o = destructions s.trace o := by
  unfold create at threw
  split at threw
  · rw [constructT_eq] at threw
    split at threw
    · cases threw
    · split at threw
      · dsimp only at threw
        split at threw
        · cases threw
          exact List.count_cons_of_ne (by nofun)
        · cases threw
      · cases threw
  · cases threw

theorem emplace_thrown (how : Init) {this : ObjId} {args : List Arg} {init : Bool}
    (here : s.occupancy.flag this = some init) (live : ∀ v ∈ args, s.occupancy.live v.loc = true)
    (free : ∀ v ∈ args, v.loc ≠ .contained this) :
    (emplace b how this args s).Holds (fun _ _ => True) fun _ t =>
      t.occupancy.flag this = some false ∧
        destructions t.trace this = destructions s.trace this + if init then 1 else 0 := by
  have runs := emplace_holds b how here live free
  cases outcome : emplace b how this args s with
  | ok _ t => trivial
  | fault f => simp [outcome] at runs
  | thrown e t =>
    rw [outcome, holds_thrown] at runs
    refine ⟨by rw [runs, Occupancy.set_same], ?_⟩
    have first := clear_holds (ε := ε) here (E := fun _ _ => False)
    simp only [emplace, bind_apply] at outcome
    cases cleared : (clear this : Doc α ε Unit) s with
    | ok _ u =>
      rw [andThen_ok cleared] at outcome
      rw [create_destructions b outcome, clear_destructions here cleared]
    | thrown e u => simp [cleared] at first
    | fault f => simp [cleared] at first

theorem replaces_thrown (impl : Impl) {op : Op} {this : Nat} (replaces : op.replaces = some this)
    (legal : Legal op s.occupancy) (free : op.SelfFree) :
    (exec b (style b E impl) op s).Holds (fun _ _ => True) fun _ t =>
      t.occupancy.flag (.named this) = some false ∧ destructions t.trace (.named this) =
        destructions s.trace (.named this) + if s.occupancy.flag (.named this) = some true then 1
        else 0 := by
  obtain ⟨creates, objects, sources⟩ := legal
  cases op <;> simp only [Op.replaces, Option.some.injEq, reduceCtorEq] at replaces
  case emplace o args | assignFactory o typed args =>
    subst replaces
    obtain ⟨init, here⟩ := objects _ (.head _)
    have runs := fun how => emplace_thrown b how here
      (fun v member => sources _ (List.mem_map_of_mem member)) free
    simp only [here, Option.some.injEq]
    exact runs _

theorem copies_undone (impl : Impl) {op : Op} {o rhs : Nat} (copies : op.copies = some (o, rhs))
    (quiet : s.Quiet) (legal : Legal op s.occupancy) :
    (exec b (style b E impl) op s).Holds (fun _ _ => True) (fun _ t => Undone False s t) := by
  obtain ⟨creates, objects, sources⟩ := legal
  have none : False → Strong E b := False.elim
  cases op <;> simp only [Op.copies, Option.some.injEq, reduceCtorEq, Prod.mk.injEq] at copies
  case copyCtor | moveCtor | convCopyCtor | convMoveCtor =>
    obtain ⟨init, here⟩ := objects _ (.head _)
    exact (newFrom_holds b False none quiet.1 (creates _ (.head _)) here nofun).mono
      (fun _ _ _ => trivial) (fun _ _ undone => undone)

end Spec

/-! ### An argument that refers to the value being replaced

Such a call never gets as far as throwing: the value is gone when the constructor reads it. -/

theorem constructT_dead {σ : Type} [Memory σ α] (how : Init) (dst : Loc) {args : List Arg} {s : σ}
    {v : Arg} (member : v ∈ args) (dead : value s v.loc = none) :
    ∃ f, constructT b how dst args s = .fault f := by
  rw [constructT_eq]
  split
  · exact ⟨_, rfl⟩
  · rw [if_neg]
    · exact ⟨_, rfl⟩
    · intro live
      have read := List.all_eq_true.mp live _ (List.mem_map_of_mem member)
      simp [dead] at read

theorem clears_then_faults {this : ObjId} {c k : Code α ε Unit} {w : World α} {s : Spec.State α}
    (rep : Represents w s) {init : Bool} (here : s.occupancy.flag this = some init)
    (clears : Implements c (Spec.clear this))
    (dies : ∀ u : World α, u.flag this = some false → value u (.contained this) = none →
      ∃ f, k u = .fault f) :
    ∃ f, (c >>= fun _ => k) w = .fault f := by
  have matched := clears w s rep
  have cleared := Spec.clear_holds (ε := ε) here (E := fun _ _ => False)
  have after := matched.holds cleared
  simp only [bind_apply, andThen]
  cases outcome : c w with
  | thrown e u =>
    rw [outcome] at after
    obtain ⟨t, _, impossible⟩ := after
    exact impossible.elim
  | fault f => exact ⟨f, rfl⟩
  | ok _ u =>
    rw [outcome] at after
    obtain ⟨t, represents, occupied⟩ := after
    have empty : t.occupancy.flag this = some false := by rw [occupied, Spec.Occupancy.set_same]
    refine dies u (by rw [represents.flag_eq, empty]) ?_
    rw [represents.value_eq]
    exact Option.isNone_iff_eq_none.mp
      (by simp [← Option.not_isSome, Spec.value_isSome, Spec.Occupancy.live, empty])

theorem own_argument_faults (E : Element α) (impl : Impl) {op : Op} {this : Nat}
    (replaces : op.replaces = some this)
    {w : World α} (settled : w.Settled) (legal : op.Legal w) (own : ¬ op.SelfFree) :
    ∃ f, impl.exec E b op w = .fault f := by
  have rep := consistent_represents settled.consistent
  obtain ⟨creates, objects, sources⟩ := rep.legal legal
  have dead : ∀ {how : Init} {args : List Arg} {v : Arg} {u : World α}, v ∈ args →
      v.loc = .contained (.named this) → value u (.contained (.named this)) = none →
      ∃ f, (do constructT b how (.contained (.named this)) args; setInit (.named this) true : Code α ε Unit) u =
        .fault f := by
    intro how args v u member loc empty
    obtain ⟨f, faults⟩ := constructT_dead b how (.contained (.named this)) member (loc ▸ empty)
    exact ⟨f, by simp only [bind_apply, andThen, faults]⟩
  cases op <;> simp only [Op.replaces, Option.some.injEq, reduceCtorEq] at replaces
  case emplace o args =>
    subst replaces
    obtain ⟨init, here⟩ := objects _ (.head _)
    simp only [Op.SelfFree, not_forall, Classical.not_not] at own
    obtain ⟨v, member, loc⟩ := own
    cases impl with
    | union _ =>
      refine clears_then_faults rep here (Union.reset_implements E _) fun u empty vacant => ?_
      simp only [Union.initializeT, Union.assertEmpty, bind_apply, andThen, isInitialized, empty]
      exact dead member loc vacant
    | aligned _ =>
      exact clears_then_faults rep here (Aligned.destroy_implements _) fun u _ vacant =>
        dead member loc vacant
  case assignFactory o typed args =>
    subst replaces
    obtain ⟨init, here⟩ := objects _ (.head _)
    simp only [Op.SelfFree, not_forall, Classical.not_not] at own
    obtain ⟨v, member, loc⟩ := own
    cases impl with
    | union _ =>
      exact clears_then_faults rep here (Union.reset_implements E _) fun u _ vacant =>
        dead member loc vacant
    | aligned _ =>
      have live := sources _ (List.mem_map_of_mem member)
      rw [loc] at live
      have full : w.flag (.named o) = some true := by
        rw [rep.flag_eq]
        simpa [Spec.Occupancy.live] using live
      obtain ⟨f, faults⟩ := clears_then_faults rep here
        (k := Aligned.constructFactory b (.named o) (factoryInit typed) args)
        (Aligned.destroy_implements _) fun u _ vacant => dead member loc vacant
      refine ⟨f, ?_⟩
      simpa [Impl.exec, Aligned.exec, Aligned.assignFactory, Aligned.assignExprFactory, andThen,
        isInitialized,
        full] using faults

/-! ### The exception guarantees -/

def World.Same (w w' : World α) : Prop := w'.flag = w.flag ∧ ∀ l, w'.value l = w.value l

theorem Spec.Undone.flag_eq {w w' : World α} {s t : Spec.State α} {strong : Prop}
    (undone : Spec.Undone strong s t) (rep : Represents w s) (rep' : Represents w' t) :
    w'.flag = w.flag := by
  funext o
  rw [rep.flag_eq, rep'.flag_eq, undone.1]

theorem Spec.Undone.same {w w' : World α} {s t : Spec.State α} (undone : Spec.Undone True s t)
    (rep : Represents w s) (rep' : Represents w' t) : w.Same w' := by
  refine ⟨undone.flag_eq rep rep', fun l => ?_⟩
  have values := undone.2 trivial
  rw [← rep.value_eq, ← rep'.value_eq] at values
  exact congrFun values l

section Thrown

variable (E : Element α) (impl : Impl) {op : Op} {w w' : World α} {e : ε} (settled : w.Settled)
  (legal : op.Legal w) (threw : impl.exec E b op w = .thrown e w')

include settled legal threw

theorem Impl.thrown_document :
    (Outcome.thrown e w' : Outcome (World α) ε Fault Unit).Match Represents
      (Spec.exec b (Spec.style b E impl) op w.document) := by
  rw [← threw]
  exact impl.exec_implements E b op legal.fresh w _ (consistent_represents settled.consistent)

theorem Impl.assign_thrown (assigns : op.assigns = true) :
    w'.flag = w.flag ∧ (Strong E b → op.fromOwn = true → w.Same w') := by
  have rep := consistent_represents settled.consistent
  have matched := impl.thrown_document b E settled legal threw
  refine ⟨?_, fun strong own => ?_⟩
  · obtain ⟨t, rep', undone⟩ := matched.holds (Spec.assigns_undone b False (E := E) impl assigns nofun
      settled.document_quiet (rep.legal legal))
    exact undone.flag_eq rep rep'
  · obtain ⟨t, rep', undone⟩ := matched.holds
      (Spec.assigns_undone b True impl assigns (fun _ => ⟨strong, own⟩)
      settled.document_quiet (rep.legal legal))
    exact undone.same rep rep'

theorem Impl.replace_thrown {this : Nat} (replaces : op.replaces = some this) :
    w'.flag (.named this) = some false ∧ Spec.destructions w'.trace (.named this) =
      Spec.destructions w.trace (.named this) + if w.flag (.named this) = some true then 1 else 0 := by
  have rep := consistent_represents settled.consistent
  by_cases free : op.SelfFree
  · obtain ⟨t, rep', emptied, destroyed⟩ := (impl.thrown_document b E settled legal threw).holds
      (Spec.replaces_thrown b (E := E) impl replaces (rep.legal legal) free)
    rw [rep.flag_eq, rep'.flag_eq, rep.trace, rep'.trace]
    exact ⟨emptied, destroyed⟩
  · obtain ⟨f, faults⟩ := own_argument_faults b E impl replaces settled legal free
    rw [faults] at threw
    cases threw

theorem Impl.copy_thrown {o rhs : Nat} (copies : op.copies = some (o, rhs)) :
    w'.value (.contained (.named o)) = none ∧ w'.flag (.named o) = none ∧
      w'.flag (.named rhs) = w.flag (.named rhs) := by
  have rep := consistent_represents settled.consistent
  obtain ⟨t, rep', undone⟩ := (impl.thrown_document b E settled legal threw).holds
    (Spec.copies_undone b (E := E) impl copies settled.document_quiet (rep.legal legal))
  have flags := undone.flag_eq rep rep'
  have absent : w.flag (.named o) = none := by
    refine legal.1 _ ?_
    cases op <;> simp_all [Op.copies, Op.creates]
  refine ⟨?_, by rw [flags, absent], by rw [flags]⟩
  have empty := rep'.consistent (.named o)
  rw [flags, absent] at empty
  simpa using empty

end Thrown

theorem Impl.exec_thrown (E : Element α) (impl : Impl) {op : Op} {w w' : World α} {e : ε}
    (settled : w.Settled)
    (legal : op.Legal w) (threw : impl.exec E b op w = .thrown e w') :
    (op.assigns = true → w'.flag = w.flag ∧ (Strong E b → op.fromOwn = true → w.Same w')) ∧
    (∀ this, op.replaces = some this → w'.flag (.named this) = some false ∧
      Spec.destructions w'.trace (.named this) =
        Spec.destructions w.trace (.named this) + if w.flag (.named this) = some true then 1 else 0) ∧
    (∀ o rhs, op.copies = some (o, rhs) → w'.value (.contained (.named o)) = none ∧
      w'.flag (.named o) = none ∧ w'.flag (.named rhs) = w.flag (.named rhs)) :=
  ⟨impl.assign_thrown b E settled legal threw, fun _ => impl.replace_thrown b E settled legal threw,
    fun _ _ => impl.copy_thrown b E settled legal threw⟩

theorem intLike_restores (fails : List Call → Call → Option ε) (c : Call) :
    Spec.Restores (intLike fails) c := by
  intro trace values threw l _ v held
  simp only [intLike] at threw ⊢
  cases schedule : fails trace c with
  | some e => simp [held]
  | none => cases c <;> simp [schedule] at threw

theorem intLike_strong (fails : List Call → Call → Option ε) :
    Strong (.nontrivial Int) (intLike fails) :=
  ⟨fun _ _ _ => intLike_restores fails _, fun _ _ _ => intLike_restores fails _, nofun⟩

/-- `o0 = std::move(o1)` of two optionals with values, where `T`'s move assignment throws. -/
theorem Impl.exec_thrown_moveAssign :
    ∃ w w' : World Int, w.flag (.named 0) = some true ∧ w.flag (.named 1) = some true ∧
      (Impl.aligned false).exec (.nontrivial Int)
      (intLike fun calls _ => if calls.length = 2 then some () else none)
        (.moveAssign 0 1) w = .thrown () w' ∧ w.Same w' := by
  obtain ⟨w, w', run, full, full', legal, threw⟩ : ∃ w w' : World Int,
      (Impl.aligned false).SelfFreeRun
      (intLike fun calls _ => if calls.length = 2 then some () else none)
        (.nontrivial Int) (World.initial fun _ => 1)
        [(.valueCtor 0 (.var 0) .lvalue, none), (.valueCtor 1 (.var 0) .lvalue, none)] w ∧
      w.flag (.named 0) = some true ∧ w.flag (.named 1) = some true ∧ (Op.moveAssign 0 1).Legal w ∧
      (Impl.aligned false).exec (.nontrivial Int)
      (intLike fun calls _ => if calls.length = 2 then some () else none)
        (.moveAssign 0 1) w = .thrown () w' :=
    ⟨_, _, .cons ⟨by decide, by decide⟩ ⟨rfl, rfl⟩ (.cons ⟨by decide, by decide⟩ ⟨rfl, rfl⟩ (.nil _)),
      rfl, rfl, by decide, rfl⟩
  have settled := Impl.run_settled _ _ _ run (World.initial_settled _)
  exact ⟨w, w', full, full', threw,
    ((Impl.exec_thrown _ _ _ settled legal threw).1 rfl).2 (intLike_strong _) rfl⟩

end BoostOptional
