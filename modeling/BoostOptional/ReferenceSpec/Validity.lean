import BoostOptional.Accessors.Stability
import BoostOptional.ReferenceSpec.Accessors
import BoostOptional.ReferenceSpec.Rebinding

/-!
Optional references to values in optionals. Whatever else a program does, a reference that is not bound
anew stays where it is, and it may be used exactly while the optional it refers into is engaged. If the
optional was engaged all along and nothing replaced its value, it is still the same `T`.
-/

namespace BoostOptional.ReferenceSpec
open Effect Prog

variable {α ε β : Type}

/-- The optional references whose pointer an operation sets. -/
def Op.binds : Op → List Nat
  | defaultCtor o | noneCtor o | copyCtor o _ | convCtor o _ | lvalueCtor o _ | rvalueCtor o _ | forwardCtor o _
  | condCtor o _ _ | fromOptional o _ | copyAssign o _ | convAssign o _ | assignNone o | assignRef o _
  | emplace o _ | reset o | resetRef o _ | destroy o => [o]
  | swap x y => [x, y]

/-- No pointer changed but these. -/
def Frame (os : List Nat) (s t : State α) : Prop := t.world = s.world ∧ ∀ o, o ∉ os → t.ptr_ o = s.ptr_ o

instance Frame.refl (os : List Nat) : Std.Refl (Frame (α := α) os) := ⟨fun _ => ⟨rfl, fun _ _ => rfl⟩⟩

instance Frame.trans (os : List Nat) : IsTrans (State α) (Frame os) :=
  ⟨fun _ _ _ first second => ⟨second.1.trans first.1, fun o other => (second.2 o other).trans (first.2 o other)⟩⟩

theorem frame_nil {s t : State α} (frame : Frame [] s t) : t = s := by
  obtain ⟨world, pointers⟩ := frame
  cases s
  cases t
  simp only [State.mk.injEq]
  exact ⟨world, funext fun o => pointers o List.not_mem_nil⟩

/-! ### The operations of `optional<T&>` -/

section Frames

variable {os : List Nat} {o : Nat}

theorem update_frame (s : State α) (member : o ∈ os) (q : Option Pointer) :
    Frame os s { s with ptr_ := Function.update s.ptr_ o q } :=
  ⟨rfl, fun p other => Function.update_of_ne (fun same => other (by rw [same]; exact member)) _ _⟩

theorem create_frame (member : o ∈ os) (p : Pointer) : Keeps (Frame os) (create o p : Code α ε Unit) := by
  intro s
  unfold create
  split
  · exact update_frame s member _
  · trivial

theorem store_frame (member : o ∈ os) (p : Pointer) : Keeps (Frame os) (store o p : Code α ε Unit) := by
  intro s
  unfold store
  split
  · trivial
  · exact update_frame s member _

theorem destroy_frame (member : o ∈ os) : Keeps (Frame os) (destroy o : Code α ε Unit) := by
  intro s
  unfold destroy
  split
  · trivial
  · exact update_frame s member _

theorem load_frame : Keeps (Frame os) (load o : Code α ε Pointer) := by
  intro s
  unfold load
  split
  · trivial
  · trivial
  · exact refl_of (Frame os) s

theorem preventBindingRvalue_frame (allow isLvalue : Bool) :
    Keeps (Frame os) (preventBindingRvalue allow isLvalue : Code α ε Unit) :=
  keeps_ite (keeps_pure _) (keeps_fail _)

theorem optionalHasValue_frame : Keeps (Frame os) (optionalHasValue o : Code α ε Bool) := by
  intro s
  unfold optionalHasValue
  split
  · exact refl_of (Frame os) s
  · trivial

/-- Nothing but the pointers of its own objects is changed by an operation. -/
theorem exec_frame (types : Referees) (allow : Bool) (op : Op) :
    Keeps (Frame op.binds) (exec types allow op : Code α ε Unit) := by
  have guarded : ∀ {isLvalue : Bool} {os : List Nat} {c : Code α ε Unit}, Keeps (Frame os) c →
      Keeps (Frame os) (preventBindingRvalue allow isLvalue >>= fun _ => c) := fun keeps =>
    keeps_bind (preventBindingRvalue_frame _ _) fun _ => keeps
  cases op with
  | defaultCtor o | noneCtor o | lvalueCtor o r => exact create_frame (.head _) _
  | copyCtor o rhs | convCtor o rhs => exact keeps_bind load_frame fun _ => create_frame (.head _) _
  | rvalueCtor o r | forwardCtor o r | condCtor o cond r => exact guarded (create_frame (.head _) _)
  | fromOptional o from_ =>
    exact keeps_bind optionalHasValue_frame fun _ =>
      keeps_ite (create_frame (.head _) _) (create_frame (.head _) _)
  | copyAssign this rhs | convAssign this rhs => exact keeps_bind load_frame fun _ => store_frame (.head _) _
  | assignNone this | reset this => exact store_frame (.head _) _
  | assignRef this r | emplace this r | resetRef this r => exact guarded (store_frame (.head _) _)
  | swap x y =>
    exact keeps_bind load_frame fun _ => keeps_bind load_frame fun _ =>
      keeps_bind (store_frame (.head _) _) fun _ => store_frame (.tail _ (.head _)) _
  | destroy o => exact destroy_frame (.head _)

end Frames

/-! ### Accessors -/

theorem hasValue_frame {o : Nat} : Keeps (Frame []) (hasValue o : Code α ε Bool) :=
  keeps_bind load_frame fun _ => keeps_pure _

theorem get_frame {o : Nat} : Keeps (Frame []) (get o : Code α ε Loc) := by
  refine keeps_bind load_frame fun p => ?_
  rcases p with _ | _ | l
  · exact keeps_fail _
  · exact keeps_fail _
  · exact keeps_pure _

theorem callSupplier_frame (f : Supplier α ε) : Keeps (Frame []) (callSupplier f) := by
  intro s
  unfold callSupplier
  cases f.call s.world.value with
  | ok l => exact refl_of (Frame []) s
  | error e => exact refl_of (Frame []) s

theorem locate_frame (types : Referees) (allow : Bool) (place : Place α ε) :
    Keeps (Frame []) (place.locate types allow) := by
  cases place with
  | direct l => exact keeps_pure _
  | through this a =>
    cases a with
    | get => exact get_frame
    | value => exact keeps_bind hasValue_frame fun _ => keeps_ite get_frame fun s => refl_of (Frame []) s
    | valueOr y =>
      refine keeps_bind (preventBindingRvalue_frame _ _) fun _ => keeps_bind load_frame fun p => ?_
      cases p <;> exact keeps_pure _
    | valueOrEval f =>
      refine keeps_bind (keeps_ite (keeps_pure _) (keeps_fail _)) fun _ => keeps_bind load_frame fun p => ?_
      rcases p with _ | _ | l
      · exact keeps_bind (callSupplier_frame f) fun _ => keeps_pure _
      · exact keeps_bind (callSupplier_frame f) fun _ => keeps_pure _
      · exact keeps_pure _

/-- Every accessor of a bound reference refers to the object it is bound to. -/
theorem locate_bound {types : Referees} {allow : Bool} {s : State α} {r : Nat} {l : Loc}
    (bound : s.ptr_ r = some (.to l)) {a : Access α ε} (legal : a.Legal allow s r) :
    (Place.through r a).locate types allow s = .ok l s := by
  have loaded : (load r : Code α (Thrown ε) Pointer) s = .ok (.to l) s := by simp only [load, bound]
  have got : (get r : Code α (Thrown ε) Loc) s = .ok l s := by
    change andThen (load r) _ s = _
    rw [andThen_ok loaded]
    rfl
  cases a with
  | get => exact got
  | value =>
    have engaged : (hasValue r : Code α (Thrown ε) Bool) s = .ok true s := by
      change andThen (load r) _ s = _
      rw [andThen_ok loaded]
      rfl
    change andThen (hasValue r) _ s = _
    rw [andThen_ok engaged]
    exact got
  | valueOr y =>
    have compiles : (preventBindingRvalue allow y.isLvalue : Code α (Thrown ε) Unit) s = .ok () s := by
      rw [preventBindingRvalue, if_pos legal.2]
      rfl
    change andThen (preventBindingRvalue allow y.isLvalue) _ s = _
    rw [andThen_ok compiles]
    change andThen (load r) _ s = _
    rw [andThen_ok loaded]
    rfl
  | valueOrEval f =>
    have compiles : forwardReference f s = .ok () s := by
      rw [forwardReference, if_pos legal.2]
      rfl
    change andThen (forwardReference f) _ s = _
    rw [andThen_ok compiles]
    change andThen (load r) _ s = _
    rw [andThen_ok loaded]
    rfl

/-! ### Steps -/

/-- The programs on the owners that a step may come to. -/
def Step.Runs (E : Element α) (b : Behaviour α (Thrown ε)) (impl : Impl) :
    Step α ε → BoostOptional.Code α (Thrown ε) Unit → Prop
  | .owner stmt, c => c = (impl.program E b).exec stmt
  | .reference _, _ => False
  | .assign _ _ cat ty, c => ∃ x y, c = assignT b x ⟨y, cat, ty⟩
  | .map o _ f, c => c = impl.exec E b (.defaultCtor o) ∨
    ∃ l, c = Accessor.flatMapped (impl.exec E b) o (fun v => (f v).map some) ⟨l, .lvalue, .self⟩
  | .flatMap o _ f, c => c = impl.exec E b (.defaultCtor o) ∨
    ∃ l, c = Accessor.flatMapped (impl.exec E b) o f ⟨l, .lvalue, .self⟩

/-- The optional references that a step binds. -/
def Step.binds : Step α ε → List Nat
  | .reference op => op.binds
  | _ => []

/-- A step that does not replace the value of the optional `o`. -/
def Step.Retains (o : Nat) : Step α ε → Prop
  | .owner (.operation op) => op.replaces ≠ some o
  | _ => True

section Steps

variable {types : Referees} {allow : Bool} {E : Element α} {b : Behaviour α (Thrown ε)} {impl : Impl}
  {s t : State α} {raised : Option (Thrown ε)}

/-- A part of a statement that only looks: it goes on in the same state, or ends there. -/
theorem looked {c : Code α (Thrown ε) β} (looks : Keeps (Frame []) c)
    {next : β → Prog (State α) (Thrown ε) (Fault ⊕ BoostOptional.Fault) Unit}
    (ends : (andThen (Part.whole.run .inl c) next s).Ends raised t) :
    (∃ x, (next x s).Ends raised t) ∨ t = s := by
  have kept := looks s
  cases run : c s with
  | ok x u =>
    rw [run] at kept
    obtain rfl := frame_nil kept
    rw [andThen_ok (Part.run_ok (P := .whole) run)] at ends
    exact .inl ⟨x, ends⟩
  | thrown e u =>
    rw [run] at kept
    obtain rfl := frame_nil kept
    rw [andThen_thrown (Part.run_thrown (P := .whole) run)] at ends
    exact .inr ends.2.symm
  | fault f =>
    rw [andThen_fault (Part.run_fault (P := .whole) run)] at ends
    exact ends.elim

theorem owners_ends {c : BoostOptional.Code α (Thrown ε) Unit}
    (ends : (owners.run (Sum.inr (α := Fault)) c s).Ends raised t) :
    t.ptr_ = s.ptr_ ∧ (c s.world).Ends raised t.world := by
  obtain ⟨w, ended, rfl⟩ := Part.run_ends.mp ends
  exact ⟨rfl, ended⟩

theorem mapThrough_splits {o r : Nat} {made : Loc → BoostOptional.Code α (Thrown ε) Unit}
    (ends : (mapThrough E b impl o r made s).Ends raised t) : t.ptr_ = s.ptr_ ∧ (t.world = s.world ∨
      ∃ c, (c = impl.exec E b (.defaultCtor o) ∨ ∃ l, c = made l) ∧ (c s.world).Ends raised t.world) := by
  rcases looked hasValue_frame ends with ⟨has, ends⟩ | rfl
  · cases has with
    | true =>
      rcases looked get_frame ends with ⟨l, ends⟩ | rfl
      · obtain ⟨pointers, ends⟩ := owners_ends ends
        exact ⟨pointers, .inr ⟨_, .inr ⟨l, rfl⟩, ends⟩⟩
      · exact ⟨rfl, .inl rfl⟩
    | false =>
      obtain ⟨pointers, ends⟩ := owners_ends ends
      exact ⟨pointers, .inr ⟨_, .inl rfl, ends⟩⟩
  · exact ⟨rfl, .inl rfl⟩

/-- A step binds its own references, and works on the owners by one of its programs. -/
theorem Step.exec_splits {step : Step α ε} (ends : (step.exec types allow E b impl s).Ends raised t) :
    (∀ o, o ∉ step.binds → t.ptr_ o = s.ptr_ o) ∧
    (t.world = s.world ∨ ∃ c, step.Runs E b impl c ∧ (c s.world).Ends raised t.world) := by
  cases step with
  | owner stmt =>
    obtain ⟨pointers, ends⟩ := owners_ends ends
    exact ⟨fun o _ => congrFun pointers o, .inr ⟨_, rfl, ends⟩⟩
  | reference op =>
    obtain ⟨u, ended, rfl⟩ := Part.run_ends.mp ends
    obtain ⟨world, pointers⟩ := (exec_frame types allow op s).ends ended
    exact ⟨pointers, .inl world⟩
  | assign dst src cat ty =>
    rcases looked (locate_frame types allow src) ends with ⟨y, ends⟩ | rfl
    · rcases looked (locate_frame types allow dst) ends with ⟨x, ends⟩ | rfl
      · obtain ⟨pointers, ends⟩ := owners_ends ends
        exact ⟨fun o _ => congrFun pointers o, .inr ⟨_, ⟨x, y, rfl⟩, ends⟩⟩
      · exact ⟨fun _ _ => rfl, .inl rfl⟩
    · exact ⟨fun _ _ => rfl, .inl rfl⟩
  | map o r f =>
    obtain ⟨pointers, world⟩ := mapThrough_splits ends
    simp only [Accessor.mapped_eq] at world
    exact ⟨fun o _ => congrFun pointers o, world⟩
  | flatMap o r f =>
    obtain ⟨pointers, world⟩ := mapThrough_splits ends
    exact ⟨fun o _ => congrFun pointers o, world⟩

/-! ### The document -/

theorem newEmpty_implements (o : Nat) :
    Implements (impl.exec E b (.defaultCtor o)) (Spec.exec b (Spec.style b E impl) (.noneCtor o)) :=
  new_implements b E impl (.defaultCtor o) rfl

section Document

variable {d : Spec.State α} {o : Nat} {l : Loc} (quiet : d.Quiet)

include quiet

theorem assigned_quiet {x : Loc} {v : Arg} (liveX : d.occupancy.live x = true)
    (liveV : d.occupancy.live v.loc = true) :
    (assignT b x v d).Holds (fun _ => Spec.State.Quiet) (fun _ => Spec.State.Quiet) := by
  refine (Spec.assignT_holds b False liveX liveV False.elim).mono (fun _ t same => ?_) fun _ t undone => ?_
  · rw [Spec.State.Quiet, same]
    exact quiet
  · rw [Spec.State.Quiet, undone.1]
    exact quiet

theorem fromResult_quiet (absent : d.occupancy.flag (.named o) = none) (y : α) :
    (Accessor.fromResult (Spec.exec b (Spec.style b E impl)) o y d).Holds (fun _ => Spec.State.Quiet)
      (fun _ => Spec.State.Quiet) := by
  refine (Spec.fromResult_holds quiet.1 absent).mono (fun _ u made => ?_) fun _ u same => ?_
  · rw [Spec.State.Quiet, made]
    exact quiet.set o _
  · rw [Spec.State.Quiet, same]
    exact quiet

theorem newEmpty_quiet (absent : d.occupancy.flag (.named o) = none) :
    (Spec.exec b (Spec.style b E impl) (.noneCtor o) d).Holds (fun _ => Spec.State.Quiet)
      (fun _ => Spec.State.Quiet) :=
  Spec.quiet_holds quiet (Spec.appear_occupancy (E := fun _ => Spec.Undone False d) absent)

/-- After a call of a function that reads a live `T`, the state is as before it. -/
theorem called_quiet {f : α → Except ε β} {next : β → Spec.Doc α (Thrown ε) Unit}
    (live : d.occupancy.live l = true)
    (rest : ∀ y, (next y d).Holds (fun _ => Spec.State.Quiet) (fun _ => Spec.State.Quiet)) :
    (andThen (Accessor.callFunction f ⟨l, .lvalue, .self⟩) next d).Holds (fun _ => Spec.State.Quiet)
      (fun _ => Spec.State.Quiet) := by
  have called : (Accessor.callFunction f ⟨l, .lvalue, .self⟩ d).Holds (fun _ t => t = d)
      (fun _ => Spec.State.Quiet) := by
    refine (Spec.callFunction_holds live).mono (fun _ _ same => same) fun _ t same => ?_
    rw [same]
    exact quiet
  refine holds_andThen called fun y t same => ?_
  rw [same]
  exact rest y

end Document

theorem assignT_live {w w' : World α} {x : Loc} {v : Arg} (ends : (assignT b x v w).Ends raised w') :
    (w.value x).isSome = true ∧ (w.value v.loc).isSome = true := by
  rw [assignT_eq] at ends
  split at ends
  · assumption
  · exact ends.elim

theorem callFunction_live {w w' : World α} {f : α → Except ε β} {v : Arg}
    {next : β → BoostOptional.Code α (Thrown ε) Unit}
    (ends : (andThen (Accessor.callFunction f v) next w).Ends raised w') : (w.value v.loc).isSome = true := by
  cases held : Memory.value w v.loc with
  | none =>
    have faults : Accessor.callFunction f v w = .fault (.notLive (.construct .direct .scratch [v])) := by
      simp only [Accessor.callFunction, held]
    rw [andThen_fault faults] at ends
    exact ends.elim
  | some x => exact Option.isSome_iff_exists.mpr ⟨x, held⟩

theorem document_live {w : World α} (settled : w.Settled) {l : Loc} (live : (w.value l).isSome = true) :
    w.document.occupancy.live l = true := by
  rw [← Spec.value_isSome, ← (consistent_represents settled.consistent).value_eq]
  exact live

theorem flatMapped_quiet {w w' : World α} {o : Nat} {f : α → Except ε (Option α)} {l : Loc} (settled : w.Settled)
    (absent : w.flag (.named o) = none) (ends : (Accessor.flatMapped (impl.exec E b) o f ⟨l, .lvalue, .self⟩ w).Ends raised w') :
    (Accessor.flatMapped (Spec.exec b (Spec.style b E impl)) o f ⟨l, .lvalue, .self⟩ w.document).Holds
      (fun _ => Spec.State.Quiet) (fun _ => Spec.State.Quiet) := by
  have quiet := settled.document_quiet
  have empty : w.document.occupancy.flag (.named o) = none := by
    rw [← (consistent_represents settled.consistent).flag_eq, absent]
  refine called_quiet quiet (document_live settled (callFunction_live ends)) fun y => ?_
  cases y with
  | some y => exact fromResult_quiet quiet empty y
  | none => exact newEmpty_quiet quiet empty

/-- What a step does in the document: it leaves no temporary, and destroys no value that it retains. -/
theorem Step.runs_document {step : Step α ε} {c : BoostOptional.Code α (Thrown ε) Unit} {w : World α}
    (runs : step.Runs E b impl c) (legal : step.Legal allow s) (settled : s.world.Settled)
    (ends : (c s.world).Ends raised w) : ∃ d : Spec.Doc α (Thrown ε) Unit, Implements c d ∧
      (d s.world.document).Holds (fun _ => Spec.State.Quiet) (fun _ => Spec.State.Quiet) ∧
      ∀ o, step.Retains o → s.world.flag (.named o) = some true →
        (d s.world.document).Kept (Spec.Stays (.named o)) s.world.document := by
  have rep := consistent_represents settled.consistent
  have quiet := settled.document_quiet
  cases step with
  | owner stmt =>
    obtain rfl := runs
    refine ⟨_, stmt.exec_implements b E impl legal.fresh, Statement.perform_quiet b E impl settled legal, ?_⟩
    intro o retains full
    refine Spec.perform_stays quiet (rep.allowed legal) ?_ (by rw [← rep.flag_eq]; exact full)
    rintro op rfl
    exact retains
  | reference op => exact runs.elim
  | assign dst src cat ty =>
    obtain ⟨x, y, rfl⟩ := runs
    obtain ⟨liveX, liveY⟩ := assignT_live ends
    exact ⟨_, assignT_implements b x ⟨y, cat, ty⟩,
      assigned_quiet quiet (document_live settled liveX) (document_live settled liveY),
      fun o _ _ => Spec.stays_of_spares (Spec.assignT_spares b x ⟨y, cat, ty⟩)⟩
  | map o r f | flatMap o r f =>
    rcases runs with rfl | ⟨l, rfl⟩
    · have empty : s.world.document.occupancy.flag (.named o) = none := by rw [← rep.flag_eq, legal.2]
      exact ⟨_, newEmpty_implements o, newEmpty_quiet quiet empty,
        fun _ _ _ => Spec.stays_of_spares (Spec.noneCtor_spares o)⟩
    · exact ⟨_, flatMapped_implements b E impl o _ _, flatMapped_quiet settled legal.2 ends,
        fun _ _ _ => Spec.stays_of_spares (Spec.flatMapped_spares o _ _)⟩

/-! ### One step -/

theorem Step.exec_settled {step : Step α ε} (ends : (step.exec types allow E b impl s).Ends raised t)
    (legal : step.Legal allow s) (settled : s.world.Settled) : t.world.Settled := by
  rcases (Step.exec_splits ends).2 with same | ⟨c, runs, ends⟩
  · rw [same]
    exact settled
  · obtain ⟨d, implements, quiet, _⟩ := Step.runs_document runs legal settled ends
    have matched := implements s.world _ (consistent_represents settled.consistent)
    refine ends.holds ((matched.holds quiet).mono (fun _ u after => ?_) fun _ u after => ?_) <;>
      obtain ⟨t, represents, quiet⟩ := after <;> exact represents.settled quiet

/-- A step that does not replace the value of `o` leaves it there, or leaves `o` empty. -/
theorem Step.exec_stays {step : Step α ε} {o : Nat} (ends : (step.exec types allow E b impl s).Ends raised t)
    (legal : step.Legal allow s) (settled : s.world.Settled) (retains : step.Retains o)
    (full : s.world.flag (.named o) = some true) (still : t.world.flag (.named o) = some true) :
    Spec.destructions t.world.trace (.named o) = Spec.destructions s.world.trace (.named o) := by
  rcases (Step.exec_splits ends).2 with same | ⟨c, runs, ends⟩
  · rw [same]
  · obtain ⟨d, implements, quiet, stays⟩ := Step.runs_document runs legal settled ends
    have rep := consistent_represents settled.consistent
    have safe := quiet.mono (fun _ _ _ => trivial) fun _ _ _ => trivial
    obtain ⟨u, ends', rep'⟩ := ((implements s.world _ rep).flip safe).ends ends
    rw [rep'.trace, rep.trace]
    refine (stays o retains full).ends ends' ?_
    rw [← rep'.flag_eq, still]

end Steps

/-! ### Runs -/

section Runs

variable {types : Referees} {allow : Bool} {E : Element α} {b : Behaviour α (Thrown ε)} {impl : Impl}
  {s t : State α} {events : List (Step α ε × Option (Thrown ε))} {r o : Nat}

/-- The runs that do not bind the reference `r` anew. -/
abbrev BoundRun (types : Referees) (allow : Bool) (E : Element α) (b : Behaviour α (Thrown ε)) (impl : Impl)
    (r : Nat) : State α → List (Step α ε × Option (Thrown ε)) → State α → Prop :=
  ((program types allow E b impl).restrict fun step _ => r ∉ step.binds).Run

theorem run_settled (run : (program types allow E b impl).Run s events t) (settled : s.world.Settled) :
    t.world.Settled := by
  induction run with
  | nil => exact settled
  | cons legal ends tail ih => exact ih (Step.exec_settled ends legal settled)

theorem run_pointer (run : BoundRun types allow E b impl r s events t) : t.ptr_ r = s.ptr_ r := by
  induction run with
  | nil => rfl
  | cons legal ends tail ih => exact ih.trans ((Step.exec_splits ends).1 r legal.2)

/-- The statements that read and write through an accessor of `r` do not go wrong. -/
def Usable (types : Referees) (allow : Bool) (E : Element α) (b : Behaviour α (Thrown ε)) (impl : Impl)
    (r : Nat) (a : Access α ε) (s : State α) : Prop :=
  ∀ x cat ty, ∀ step ∈ [Step.assign (.direct (.var x)) (.through r a) cat ty,
    .assign (.through r a) (.direct (.var x)) cat ty],
    (step.exec types allow E b impl s).Holds (fun _ _ => True) fun _ _ => True

theorem assignT_safe {w : World α} {x : Loc} {v : Arg} :
    (assignT b x v w).Holds (fun _ _ => True) (fun _ _ => True) ↔
      (w.value x).isSome = true ∧ (w.value v.loc).isSome = true := by
  constructor
  · intro safe
    rw [assignT_eq] at safe
    split at safe
    · assumption
    · exact safe.elim
  · intro live
    cases threw : (b (Memory.trace w) (.assign x v) (Memory.value w)).threw with
    | none =>
      rw [assignT_returns live.1 live.2 threw]
      trivial
    | some e =>
      rw [assignT_throws live.1 live.2 threw]
      trivial

theorem assign_safe {dst src : Place α ε} {x y : Loc} {cat : Cat} {ty : ArgTy}
    (fromY : src.locate types allow s = .ok y s) (toX : dst.locate types allow s = .ok x s) :
    ((Step.assign dst src cat ty).exec types allow E b impl s).Holds (fun _ _ => True) (fun _ _ => True) ↔
      (s.world.value x).isSome = true ∧ (s.world.value y).isSome = true := by
  change (andThen (Part.whole.run Sum.inl (src.locate types allow)) _ s).Holds _ _ ↔ _
  rw [andThen_ok (Part.run_ok (P := .whole) fromY)]
  change (andThen (Part.whole.run Sum.inl (dst.locate types allow)) _ s).Holds _ _ ↔ _
  rw [andThen_ok (Part.run_ok (P := .whole) toX)]
  exact Part.run_holds.trans assignT_safe

theorem usable_iff {a : Access α ε} {l : Loc} (bound : s.ptr_ r = some (.to l)) (legal : a.Legal allow s r) :
    Usable types allow E b impl r a s ↔ (s.world.value l).isSome = true := by
  have there : (Place.through r a).locate types allow s = .ok l s := locate_bound bound legal
  have named : ∀ x, (Place.direct (.var x) : Place α ε).locate types allow s = .ok (.var x) s := fun _ => rfl
  constructor
  · intro usable
    exact ((assign_safe there (named 0)).mp (usable 0 .lvalue .self _ (.head _))).2
  · intro live x cat ty step member
    rcases (by simpa using member : step = _ ∨ step = _) with rfl | rfl
    · exact (assign_safe there (named x)).mpr ⟨rfl, live⟩
    · exact (assign_safe (named x) there).mpr ⟨live, rfl⟩

/-- A reference into an optional that is not bound anew still refers to the place of the value, whatever
the program did, and may be used when there is a value and not otherwise. -/
theorem run_refers (run : BoundRun types allow E b impl r s events t) (settled : s.world.Settled)
    (bound : s.ptr_ r = some (.to (.contained (.named o)))) :
    t.world.Settled ∧ t.ptr_ r = some (.to (.contained (.named o))) ∧
    ∀ a : Access α ε, a.Legal allow t r →
      (Place.through r a).locate types allow t = .ok (.contained (.named o)) t ∧
      (Usable types allow E b impl r a t ↔ t.world.flag (.named o) = some true) := by
  have settled := run_settled run.unrestrict settled
  have bound : t.ptr_ r = some (.to (.contained (.named o))) := (run_pointer run).trans bound
  refine ⟨settled, bound, fun a legal => ⟨locate_bound bound legal, ?_⟩⟩
  rw [usable_iff bound legal]
  exact settled.consistent (.named o)

/-- The runs that do not bind `r` anew, with the optional `o` engaged at every step, and its value not
replaced. -/
abbrev HeldRun (types : Referees) (allow : Bool) (E : Element α) (b : Behaviour α (Thrown ε)) (impl : Impl)
    (r o : Nat) : State α → List (Step α ε × Option (Thrown ε)) → State α → Prop :=
  ((program types allow E b impl).restrict fun step s =>
    r ∉ step.binds ∧ step.Retains o ∧ s.world.flag (.named o) = some true).Run

theorem run_lasts (run : HeldRun types allow E b impl r o s events t) (settled : s.world.Settled)
    (bound : s.ptr_ r = some (.to (.contained (.named o)))) (still : t.world.flag (.named o) = some true) :
    t.ptr_ r = some (.to (.contained (.named o))) ∧ (∀ a : Access α ε, a.Legal allow t r →
      Usable types allow E b impl r a t) ∧
    Spec.destructions t.world.trace (.named o) = Spec.destructions s.world.trace (.named o) := by
  have whole : BoundRun types allow E b impl r s events t := run.weaken fun step s held => held.1
  obtain ⟨-, bound', accesses⟩ := run_refers whole settled bound
  refine ⟨bound', fun a legal => (accesses a legal).2.mpr still, ?_⟩
  clear whole bound' accesses bound
  induction run with
  | nil => rfl
  | @cons s u t step threw rest legal ends tail ih =>
    obtain ⟨legal, _, retains, full⟩ := legal
    have next := Step.exec_settled ends legal settled
    have engaged : u.world.flag (.named o) = some true := by
      cases tail with
      | nil => exact still
      | cons legal => exact legal.2.2.2
    exact (ih next still).trans (Step.exec_stays ends legal settled retains full engaged)

end Runs

/-- `optional<int> o0(v); optional<int&> r1 = o0; *r1 = w; o0.reset();` and `*r1` may not be used any more. -/
theorem run_refers_reset :
    ∃ s t : State Int, BoundRun oneType false (.nontrivial Int) (intLike fun _ _ => (none : Option (Thrown Unit)))
        (.union true) 1 s [(.assign (.through 1 .get) (.direct (.var 5)) .lvalue .self, none),
          (.owner (.operation (.reset 0)), none)] t ∧
      s.world.flag (.named 0) = some true ∧
      ¬ Usable oneType false (.nontrivial Int) (intLike fun _ _ => (none : Option (Thrown Unit))) (.union true) 1
        .get t := by
  obtain ⟨s, t, built, bound, full, run, emptied⟩ : ∃ s t : State Int,
      (program oneType false (.nontrivial Int) (intLike fun _ _ => (none : Option (Thrown Unit))) (.union true)).Run
        (State.initial (World.initial fun x => x))
        [(.owner (.operation (.valueCtor 0 (.var 0) .lvalue)), none), (.reference (.fromOptional 1 0), none)] s ∧
      s.ptr_ 1 = some (.to (.contained (.named 0))) ∧ s.world.flag (.named 0) = some true ∧
      BoundRun oneType false (.nontrivial Int) (intLike fun _ _ => (none : Option (Thrown Unit))) (.union true) 1 s
        [(.assign (.through 1 .get) (.direct (.var 5)) .lvalue .self, none), (.owner (.operation (.reset 0)), none)]
        t ∧ t.world.flag (.named 0) = some false := by
    refine ⟨_, _, .cons ?_ ⟨rfl, rfl⟩ (.cons ?_ ⟨rfl, rfl⟩ (.nil _)), rfl, rfl,
      .cons ⟨?_, by decide⟩ ⟨rfl, rfl⟩ (.cons ⟨?_, by decide⟩ ⟨rfl, rfl⟩ (.nil _)), rfl⟩
    · exact show (BoostOptional.Op.valueCtor 0 (.var 0) .lvalue).Legal _ ∧ _ from ⟨by decide, by decide⟩
    · exact ⟨rfl, by decide, by decide, by decide⟩
    · exact ⟨⟨_, rfl⟩, rfl⟩
    · exact show (BoostOptional.Op.reset 0).Legal _ ∧ _ from ⟨by decide, by decide⟩
  have settled := run_settled built (World.initial_settled _)
  obtain ⟨_, pointer, accesses⟩ := run_refers run settled bound
  refine ⟨s, t, run, full, fun usable => ?_⟩
  have engaged := (accesses .get ⟨_, pointer⟩).2.mp usable
  rw [emptied] at engaged
  cases engaged

/-- `optional<int> o0(v), o2(v); optional<int&> r1 = o0; r1.value() = w; swap(o0, o2); o2.reset();` where the swap
throws. -/
theorem run_lasts_swap :
    ∃ s t : State Int, HeldRun oneType false (.nontrivial Int)
        (intLike fun trace _ => if trace.length = 3 then some (.user ()) else none) (.aligned false) 1 0 s
        [(.assign (.through 1 .value) (.direct (.var 5)) .lvalue .self, none),
          (.owner (.operation (.swap 0 2)), some (.user ())), (.owner (.operation (.reset 2)), none)] t ∧
      Spec.destructions t.world.trace (.named 0) = Spec.destructions s.world.trace (.named 0) ∧
      t.world.value (.contained (.named 0)) = some 5 := by
  obtain ⟨s, t, built, bound, run, still, value⟩ : ∃ s t : State Int,
      (program oneType false (.nontrivial Int)
        (intLike fun trace _ => if trace.length = 3 then some (.user ()) else none) (.aligned false)).Run
        (State.initial (World.initial fun x => x))
        [(.owner (.operation (.valueCtor 0 (.var 0) .lvalue)), none),
          (.owner (.operation (.valueCtor 2 (.var 0) .lvalue)), none), (.reference (.fromOptional 1 0), none)] s ∧
      s.ptr_ 1 = some (.to (.contained (.named 0))) ∧ HeldRun oneType false (.nontrivial Int)
        (intLike fun trace _ => if trace.length = 3 then some (.user ()) else none) (.aligned false) 1 0 s
        [(.assign (.through 1 .value) (.direct (.var 5)) .lvalue .self, none),
          (.owner (.operation (.swap 0 2)), some (.user ())), (.owner (.operation (.reset 2)), none)] t ∧
      t.world.flag (.named 0) = some true ∧ t.world.value (.contained (.named 0)) = some 5 := by
    refine ⟨_, _, .cons ?_ ⟨rfl, rfl⟩ (.cons ?_ ⟨rfl, rfl⟩ (.cons ?_ ⟨rfl, rfl⟩ (.nil _))), rfl,
      .cons ⟨?_, by decide, trivial, rfl⟩ ⟨rfl, rfl⟩ (.cons ⟨?_, by decide, ?_, rfl⟩ ⟨rfl, rfl⟩
        (.cons ⟨?_, by decide, ?_, rfl⟩ ⟨rfl, rfl⟩ (.nil _))), rfl, rfl⟩
    · exact show (BoostOptional.Op.valueCtor 0 (.var 0) .lvalue).Legal _ ∧ _ from ⟨by decide, by decide⟩
    · exact show (BoostOptional.Op.valueCtor 2 (.var 0) .lvalue).Legal _ ∧ _ from ⟨by decide, by decide⟩
    · exact ⟨rfl, by decide, by decide, by decide⟩
    · exact ⟨show _ ≠ _ by decide, rfl⟩
    · exact show (BoostOptional.Op.swap 0 2).Legal _ ∧ _ from ⟨by decide, by decide⟩
    · exact show (BoostOptional.Op.swap 0 2).replaces ≠ some 0 by decide
    · exact show (BoostOptional.Op.reset 2).Legal _ ∧ _ from ⟨by decide, by decide⟩
    · exact show (BoostOptional.Op.reset 2).replaces ≠ some 0 by decide
  have settled := run_settled built (World.initial_settled _)
  exact ⟨s, t, run, (run_lasts run settled bound still).2.2, value⟩

end BoostOptional.ReferenceSpec
