import Mathlib.Logic.Function.Basic
import BoostOptional.Safety.Lifetime

/-!
Which optionals are engaged after a run. The flags form a machine of their own: an operation and
whether it threw decide the next flags, and the values play no part.
-/

namespace BoostOptional
open Effect Prog Memory

abbrev Flags : Type := Nat → Option Bool

/-- The flags that an operation leaves when it returns. -/
def Op.returned (flags : Flags) : Op → Flags
  | .defaultCtor o | .noneCtor o | .assignNone o | .reset o => Function.update flags o (some false)
  | .condCtor o cond _ _ | .inPlaceIfCtor o cond _ => Function.update flags o (some cond)
  | .valueCtor o _ _ | .inPlaceCtor o _ | .factoryCtor o _ _ | .exprCtor o _ _ | .assignFromT o _ _
  | .assignFromU o _ _ | .resetValue o _ | .assignFactory o _ _ | .emplace o _ =>
    Function.update flags o (some true)
  | .copyCtor o rhs | .moveCtor o rhs | .convCopyCtor o rhs | .convMoveCtor o rhs
  | .copyAssign o rhs | .moveAssign o rhs | .convCopyAssign o rhs | .convMoveAssign o rhs =>
    Function.update flags o (flags rhs)
  | .swap x y => Function.update (Function.update flags x (flags y)) y (flags x)
  | .destroy o => Function.update flags o none

/-- The flags that an operation leaves when it throws. An emplacement has destroyed the old value by
then. -/
def Op.thrown (flags : Flags) : Op → Flags
  | .emplace o _ | .assignFactory o _ _ => Function.update flags o (some false)
  | _ => flags

/-- The flags after a run, given which operations threw. -/
def Flags.after {ε : Type} (flags : Flags) (events : List (Op × Option ε)) : Flags :=
  events.foldl (fun flags event => if event.2.isSome then event.1.thrown flags else event.1.returned flags)
    flags

variable {α ε : Type} (b : Behaviour α ε)

def World.flags (w : World α) : Flags := fun o => w.flag (.named o)

namespace Spec

variable {s : State α}

def Occupancy.flags (k : Occupancy) : Flags := fun o => k.flag (.named o)

theorem Occupancy.set_flags (k : Occupancy) (o : Nat) (init : Option Bool) :
    (k.set (.named o) init).flags = Function.update k.flags o init := by
  funext p
  by_cases here : p = o
  · subst here
    rw [Function.update_self]
    exact k.set_same (.named p) init
  · rw [Function.update_of_ne here]
    exact k.set_other init (fun same => here (ObjId.named.inj same))

/-- On return the flags are `op.returned`, on a throw `op.thrown`. -/
def Marks (op : Op) (s : State α) (outcome : Outcome (State α) ε Fault Unit) : Prop :=
  outcome.Holds (fun _ t => t.occupancy.flags = op.returned s.occupancy.flags)
    (fun _ t => t.occupancy.flags = op.thrown s.occupancy.flags)

/-- An operation that sets the flag of `o`, or throws and changes none. -/
theorem marks_set {op : Op} {o : Nat} {init : Option Bool} {outcome : Outcome (State α) ε Fault Unit}
    {strong : Prop} (returned : op.returned s.occupancy.flags = Function.update s.occupancy.flags o init)
    (thrown : op.thrown s.occupancy.flags = s.occupancy.flags)
    (runs : outcome.Holds (fun _ t => t.occupancy = s.occupancy.set (.named o) init)
      (fun _ t => Undone strong s t)) : Marks op s outcome := by
  refine runs.mono (fun _ t done => ?_) (fun _ t undone => ?_)
  · rw [done, returned, Occupancy.set_flags]
  · rw [undone.1, thrown]

/-! ### Assigning a `T` that is not an optional -/

theorem unionAssignFromT_flat {E : Element α} (flat : E.hasValue = none) {this : ObjId} {v : Arg} {init : Bool}
    (quiet : s.occupancy.scratch = false) (apart : this ≠ .temporary)
    (unused : s.occupancy.flag .temporary = none) (here : s.occupancy.flag this = some init)
    (live : s.occupancy.live v.loc = true) :
    (unionAssignFromT b E this v s).Holds (fun _ t => t.occupancy = s.occupancy.set this (some true))
      (fun _ t => Undone False s t) := by
  have none : False → Strong E b := False.elim
  unfold unionAssignFromT
  split
  · have made : (newOptional .temporary (create b .direct .temporary [{ v with cat := v.cat.bound }]) s).Holds
        (fun _ t => t.occupancy = s.occupancy.set .temporary (some true))
        (fun _ t => Undone False s t) := by
      refine newInPlace_holds b unused ?_
      simpa using live
    refine holds_andThen made fun _ t temporary => ?_
    have present : t.occupancy.flag .temporary = some true := by rw [temporary, Occupancy.set_same]
    have before : t.occupancy.flag this = some init := by
      rw [temporary, Occupancy.set_other _ _ apart, here]
    have moved := assignFrom_holds b False none (p := .forwarded)
      (v := ⟨.contained .temporary, .rvalue, .self⟩) (by rw [temporary]; exact quiet) before
      (engaged_holds present) (fun _ => by simp [Occupancy.live, present]) False.elim
    refine holds_bracket moved (fun e u failed => ?_) fun _ u assigned => ?_
    · have there : u.occupancy.flag .temporary = some true := by rw [failed.1, present]
      refine (destroy_holds there).mono (fun _ r gone => ⟨?_, False.elim⟩) (fun _ _ none => none)
      rw [gone, failed.1, temporary, Occupancy.set_set, Occupancy.set_flag unused]
    · have there : u.occupancy.flag .temporary = some true := by
        rw [assigned, Occupancy.set_other _ _ apart.symm, present]
      refine (destroy_holds there).mono (fun _ r gone => ?_) (fun _ _ none => none)
      rw [gone, assigned, temporary, Occupancy.set_comm _ apart, Occupancy.set_set,
        Occupancy.set_flag unused]
  · simp only [flat]
    exact assignValue_holds b False none quiet here live False.elim

/-! ### Swap -/

/-- The two flags change places. -/
def Occupancy.exchange (k : Occupancy) (x y : ObjId) : Occupancy := (k.set x (k.flag y)).set y (k.flag x)

theorem Occupancy.exchange_same {k : Occupancy} {x y : ObjId} (same : k.flag x = k.flag y) :
    k.exchange x y = k := by
  rw [exchange, ← same, set_flag rfl]
  exact set_flag same.symm

theorem transfer_exchanges {dst src : ObjId} (empty : s.occupancy.flag dst = some false)
    (full : s.occupancy.flag src = some true) :
    (transfer b dst src s).Holds (fun _ t => t.occupancy = s.occupancy.exchange dst src)
      (fun _ t => t.occupancy = s.occupancy) := by
  have apart : src ≠ dst := fun same => by simp [same, empty] at full
  refine holds_andThen ((create_holds b False empty (by simp [Occupancy.live, full]) False.elim).mono
    (fun _ _ made => made) fun _ t undone => undone.1) fun _ t made => ?_
  have there : t.occupancy.flag src = some true := by rw [made, Occupancy.set_other _ _ apart, full]
  refine (clear_holds there).mono (fun _ r cleared => ?_) (fun _ _ same => same)
  rw [cleared, made, Occupancy.exchange, full, empty]

theorem Occupancy.exchange_comm (k : Occupancy) (x y : ObjId) : k.exchange x y = k.exchange y x := by
  by_cases same : x = y
  · rw [same]
  · exact k.set_comm same _ _

theorem swap_exchanges {x y : ObjId} {hasX hasY : Bool} (hereX : s.occupancy.flag x = some hasX)
    (hereY : s.occupancy.flag y = some hasY) :
    (swap b x y s).Holds (fun _ t => t.occupancy = s.occupancy.exchange x y)
      (fun _ t => t.occupancy = s.occupancy) := by
  rw [swap_eq b (engaged_holds hereX) (engaged_holds hereY)]
  cases hasX with
  | true =>
    cases hasY with
    | true =>
      refine (exchange_holds b hereX hereY).mono (fun _ t same => ?_) (fun _ t same => same)
      rw [same, Occupancy.exchange_same (hereX.trans hereY.symm)]
    | false =>
      rw [Occupancy.exchange_comm]
      exact transfer_exchanges b hereY hereX
  | false =>
    cases hasY with
    | true => exact transfer_exchanges b hereX hereY
    | false => exact (Occupancy.exchange_same (hereX.trans hereY.symm)).symm

/-! ### Every operation -/

theorem exec_marks {E : Element α} (flat : E.hasValue = none) {impl : Impl}
    (uncustomized : impl ≠ .aligned true) {op : Op} (quiet : s.Quiet) (legal : Legal op s.occupancy)
    (free : op.SelfFree) : Marks op s (exec b (style b E impl) op s) := by
  obtain ⟨creates, objects, sources⟩ := legal
  have none : False → Strong E b := False.elim
  cases op with
  | defaultCtor o | noneCtor o =>
    exact marks_set rfl rfl (appear_occupancy (E := fun _ => Undone False s) (creates _ (.head _)))
  | valueCtor o src cat =>
    exact marks_set rfl rfl (newValue_holds b False none quiet.1 (creates _ (.head _))
      (sources _ (.head _)) False.elim)
  | condCtor o cond src cat =>
    cases cond with
    | true =>
      exact marks_set rfl rfl (newValue_holds b False none quiet.1 (creates _ (.head _))
        (sources _ (.head _)) False.elim)
    | false => exact marks_set rfl rfl (newEmpty_holds False (creates _ (.head _)))
  | inPlaceCtor o args | factoryCtor o typed args =>
    exact marks_set rfl rfl (newInPlace_holds b (creates _ (.head _)) fun v member =>
      sources _ (List.mem_map_of_mem member))
  | inPlaceIfCtor o cond args =>
    cases cond with
    | true =>
      exact marks_set rfl rfl (newInPlace_holds b (creates _ (.head _)) fun v member =>
        sources _ (List.mem_map_of_mem member))
    | false => exact marks_set rfl rfl (newEmpty_holds False (creates _ (.head _)))
  | copyCtor o rhs | moveCtor o rhs | convCopyCtor o rhs | convMoveCtor o rhs =>
    obtain ⟨init, here⟩ := objects _ (.head _)
    exact marks_set (congrArg (Function.update s.occupancy.flags o) here) rfl
      (newFrom_holds b False none quiet.1 (creates _ (.head _)) here False.elim)
  | exprCtor o src cat =>
    exact marks_set rfl rfl (newInPlace_holds b (creates _ (.head _)) fun v member =>
      sources _ (by simpa [Op.sources] using congrArg Arg.loc (List.mem_singleton.mp member)))
  | assignNone this | reset this =>
    obtain ⟨init, here⟩ := objects _ (.head _)
    exact marks_set rfl rfl (clear_holds (E := fun _ => Undone False s) here)
  | assignFromT this src cat | resetValue this src =>
    obtain ⟨init, here⟩ := objects _ (.head _)
    cases impl with
    | union _ =>
      exact marks_set rfl rfl (unionAssignFromT_flat b flat quiet.1 (by simp) quiet.2 here (sources _ (.head _)))
    | aligned _ =>
      exact marks_set rfl rfl (assignValue_holds b False none quiet.1 here (sources _ (.head _)) False.elim)
  | assignFromU this src cat =>
    obtain ⟨init, here⟩ := objects _ (.head _)
    exact marks_set rfl rfl (assignValue_holds b False none quiet.1 here (sources _ (.head _)) False.elim)
  | copyAssign this rhs | moveAssign this rhs | convCopyAssign this rhs | convMoveAssign this rhs =>
    obtain ⟨init, here⟩ := objects _ (.head _)
    obtain ⟨has, there⟩ := objects _ (.tail _ (.head _))
    exact marks_set (congrArg (Function.update s.occupancy.flags this) there) rfl
      (assignFrom_holds b False none quiet.1 here (engaged_holds there) (fun full => by simp [Occupancy.live, there, full]) False.elim)
  | assignFactory this typed args | emplace this args =>
    obtain ⟨init, here⟩ := objects _ (.head _)
    refine (emplace_holds b _ here (fun v member => sources _ (List.mem_map_of_mem member)) free).mono
      (fun _ t done => ?_) (fun _ t emptied => ?_)
    · rw [done, Occupancy.set_flags]
      rfl
    · rw [emptied, Occupancy.set_flags]
      rfl
  | swap x y =>
    obtain ⟨hasX, hereX⟩ := objects _ (.head _)
    obtain ⟨hasY, hereY⟩ := objects _ (.tail _ (.head _))
    have primary : (style b E impl).swap = swap b := by
      cases impl with
      | union _ => rfl
      | aligned useDefault =>
        cases useDefault with
        | false => rfl
        | true => exact (uncustomized rfl).elim
    simp only [exec, primary]
    refine (swap_exchanges b hereX hereY).mono (fun _ t done => ?_) (fun _ t same => ?_)
    · rw [done, Occupancy.exchange, Occupancy.set_flags, Occupancy.set_flags]
      rfl
    · rw [same]
      rfl
  | destroy o =>
    obtain ⟨init, here⟩ := objects _ (.head _)
    exact marks_set rfl rfl (destroy_holds (E := fun _ => Undone False s) here)

end Spec

/-! ### Runs -/

section Runs

variable {b} {E : Element α} {impl : Impl} {w w' : World α} {events : List (Op × Option ε)}

/-- The flags at the end of a run follow from those at its start, the operations, and which of them
threw. -/
theorem Impl.run_flags (flat : E.hasValue = none) (uncustomized : impl ≠ .aligned true)
    (run : impl.SelfFreeRun b E w events w') (settled : w.Settled) : w'.flags = w.flags.after events := by
  induction run with
  | nil => rfl
  | @cons w u w' op threw rest legal ends tail ih =>
    have rep := consistent_represents settled.consistent
    have marks := Spec.exec_marks b flat uncustomized settled.document_quiet (rep.legal legal.1) legal.2
    have matched := impl.exec_implements E b op legal.1.fresh w _ rep
    have next : u.Settled := ends.holds (impl.exec_settled b E settled legal.1 legal.2)
    have document : w.document.occupancy.flags = w.flags := funext fun o => (rep.flag_eq _).symm
    have runs := matched.holds marks
    have step : u.flags = if threw.isSome then op.thrown w.flags else op.returned w.flags := by
      cases threw with
      | none =>
        obtain ⟨t, represents, marked⟩ := ends.returned runs
        rw [document] at marked
        exact (funext fun o => represents.flag_eq _).trans marked
      | some e =>
        obtain ⟨t, represents, marked⟩ := ends.threw runs
        rw [document] at marked
        exact (funext fun o => represents.flag_eq _).trans marked
    rw [ih next, step]
    rfl

end Runs

/-- A copy, and an `emplace` that throws: the flags tell the one from the other. -/
theorem Impl.run_flags_emplace :
    ∃ w : World Int, (Impl.union true).SelfFreeRun
        (intLike fun trace _ => if trace.length = 3 then some () else none) (.nontrivial Int)
        (World.initial fun _ => 1) [(.valueCtor 0 (.var 0) .lvalue, none), (.copyCtor 1 0, none),
          (.emplace 0 [⟨.var 0, .rvalue, .self⟩], some ())] w ∧
      w.flags 0 = some false ∧ w.flags 1 = some true := by
  obtain ⟨w, run⟩ : ∃ w, (Impl.union true).SelfFreeRun
        (intLike fun trace _ => if trace.length = 3 then some () else none) (.nontrivial Int)
        (World.initial fun _ => 1) [(.valueCtor 0 (.var 0) .lvalue, none), (.copyCtor 1 0, none),
          (.emplace 0 [⟨.var 0, .rvalue, .self⟩], some ())] w :=
    ⟨_, .cons ⟨by decide, by decide⟩ ⟨rfl, rfl⟩ (.cons ⟨by decide, by decide⟩ ⟨rfl, rfl⟩
      (.cons ⟨by decide, by decide⟩ ⟨rfl, rfl⟩ (.nil _)))⟩
  have flags := Impl.run_flags rfl (by decide) run (World.initial_settled _)
  exact ⟨w, run, by rw [flags]; rfl, by rw [flags]; rfl⟩

end BoostOptional
