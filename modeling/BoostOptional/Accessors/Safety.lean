import BoostOptional.Accessors.Functions
import BoostOptional.Safety.Lifetime

/-!
Programs with accessors. Whatever throws, an accessor leaves no temporary behind and every flag as it
was, and between the statements of a program the flags tell what lives.
-/

namespace BoostOptional
open Effect Prog Memory

variable {α ε : Type} (b : Behaviour α (Thrown ε)) (E : Element α) (impl : Impl)

/-! ### The accessors of the document -/

/-- A statement, with the optionals of the document. -/
def Spec.perform (s : Statement α ε) : Spec.Doc α (Thrown ε) Unit :=
  s.exec b impl Spec.engaged (Spec.exec b (Spec.style b E impl))

theorem Spec.map_perform (r this : Nat) (cat : Cat) (f : α → Except ε α) : Spec.perform b E impl (.map r this cat f) =
    Spec.perform b E impl (.flatMap r this cat fun x => (f x).map some) :=
  Statement.map_exec b impl Spec.engaged _ r this cat f

theorem refines_fail {σ τ ψ φ β : Type} {R : σ → τ → Prop} (c : Prog σ ε φ β) (f : ψ) :
    Refines R c (fail f : Prog τ ε ψ β) := fun _ _ _ => match_fault _ f

theorem get_implements (this : ObjId) (cat : Cat) :
    Implements (Accessor.get isInitialized this cat : Code α (Thrown ε) Arg) (Accessor.get Spec.engaged this cat) :=
  refines_bind (isInitialized_implements this) fun _ => refines_ite (refines_pure _) (refines_fail _ _)

theorem returned_implements (v : Arg) : Implements (Accessor.returned b v) (Accessor.returned b v) := by
  unfold Accessor.returned
  cases v.ty <;> exact constructScratch_implements b _ _

theorem alternative_implements (isRvalue : Bool) (v : Arg) :
    Implements (Accessor.alternative b impl isRvalue v) (Accessor.alternative b impl isRvalue v) := by
  unfold Accessor.alternative
  cases impl with
  | union _ =>
    cases isRvalue with
    | false => exact constructScratch_implements b _ _
    | true => exact returned_implements b v
  | aligned _ => exact returned_implements b v

theorem contained_implements (this : ObjId) (isRvalue : Bool) :
    Implements (Accessor.contained b isInitialized this isRvalue)
      (Accessor.contained b Spec.engaged this isRvalue) :=
  refines_bind (get_implements this _) fun v => returned_implements b v

theorem assignResult_implements (x : Nat) :
    Implements (Accessor.assignResult b x) (Accessor.assignResult b x) :=
  refines_bracket (assignT_implements b _ _) destroyScratch_implements

theorem callSupplier_implements (f : (Loc → Option α) → Except ε Arg) :
    Implements (Accessor.callSupplier f) (Accessor.callSupplier f) := by
  intro w s rep
  simp only [Accessor.callSupplier, rep.value_eq]
  cases f (value s) with
  | ok v => exact ⟨rfl, rep⟩
  | error e => exact ⟨rfl, rep⟩

theorem callFunction_implements {β : Type} (f : α → Except ε β) (v : Arg) :
    Implements (Accessor.callFunction f v) (Accessor.callFunction f v) := by
  intro w s rep
  simp only [Accessor.callFunction, rep.value_eq]
  cases value s v.loc with
  | none => exact match_fault _ _
  | some x =>
    cases run : f x with
    | ok y => simp [run, Outcome.Match, rep]
    | error e => simp [run, Outcome.Match, rep]

theorem new_implements (op : Op) (fresh : op.objects = []) :
    Implements (impl.exec E b op) (Spec.exec b (Spec.style b E impl) op) :=
  impl.exec_implements E b op fun o _ old => by simp [fresh] at old

theorem fromResult_implements (r : Nat) (y : α) :
    Implements (Accessor.fromResult (impl.exec E b) r y)
      (Accessor.fromResult (Spec.exec b (Spec.style b E impl)) r y) := by
  refine refines_bind (vacant_implements _) fun _ => refines_bind ?_ fun _ =>
    refines_bracket (new_implements b E impl _ rfl) destroyScratch_implements
  intro w s rep
  exact ⟨rfl, rep.flag, rep.cell, rep.var, rfl, rep.trace⟩

theorem flatMapped_implements (r : Nat) (f : α → Except ε (Option α)) (v : Arg) :
    Implements (Accessor.flatMapped (impl.exec E b) r f v)
      (Accessor.flatMapped (Spec.exec b (Spec.style b E impl)) r f v) := by
  refine refines_bind (callFunction_implements f v) fun y => ?_
  cases y with
  | some y => exact fromResult_implements b E impl r y
  | none => exact new_implements b E impl _ rfl

theorem flatMap_implements (r : Nat) (this : ObjId) (cat : Cat) (f : α → Except ε (Option α)) :
    Implements (Accessor.flatMap isInitialized (impl.exec E b) r this cat f)
      (Accessor.flatMap Spec.engaged (Spec.exec b (Spec.style b E impl)) r this cat f) :=
  refines_bind (isInitialized_implements this) fun _ => refines_ite
    (refines_bind (get_implements this cat) fun v => flatMapped_implements b E impl r f v)
    (new_implements b E impl _ rfl)

theorem Statement.exec_implements (s : Statement α ε)
    (fresh : ∀ op, s = .operation op → ∀ o ∈ op.creates, o ∉ op.objects) :
    Implements (s.exec b impl isInitialized (impl.exec E b)) (Spec.perform b E impl s) := by
  cases s with
  | operation op => exact impl.exec_implements E b op (fresh op rfl)
  | value x this cat =>
    refine refines_bind ?_ fun v => assignT_implements b _ _
    refine refines_bind (isInitialized_implements _) fun _ => refines_ite (get_implements _ _) ?_
    exact fun _ _ rep => ⟨rfl, rep⟩
  | getValueOr x this isConst y =>
    refine refines_bind ?_ fun v => assignT_implements b _ _
    refine refines_bind (isInitialized_implements _) fun _ => refines_ite ?_ (refines_pure _)
    cases impl with
    | union _ => exact refines_pure _
    | aligned _ => exact get_implements _ _
  | valueOr x this isRvalue v =>
    refine refines_bind ?_ fun _ => assignResult_implements b x
    exact refines_bind (isInitialized_implements _) fun _ =>
      refines_ite (contained_implements b _ _) (alternative_implements b impl _ _)
  | valueOrEval x this isRvalue f =>
    refine refines_bind ?_ fun _ => assignResult_implements b x
    exact refines_bind (isInitialized_implements _) fun _ => refines_ite (contained_implements b _ _)
      (refines_bind (callSupplier_implements f) fun v => alternative_implements b impl _ v)
  | map r this cat f =>
    rw [Spec.map_perform, Statement.map_exec]
    exact flatMap_implements b E impl r _ cat _
  | flatMap r this cat f => exact flatMap_implements b E impl r _ cat f

/-! ### Occupancy -/

namespace Spec

variable {b E impl} {s : State α}

/-- On both exits the optionals have a value where they had one. -/
def Steady (k : Occupancy) (o : Outcome (State α) (Thrown ε) Fault Unit) : Prop :=
  o.Holds (fun _ t => t.occupancy = k) (fun _ t => t.occupancy = k)

/-- There is a temporary `T` on return, and none after a throw. -/
def Produces (k : Occupancy) (o : Outcome (State α) (Thrown ε) Fault Unit) : Prop :=
  o.Holds (fun _ t => t.occupancy = { k with scratch := true }) (fun _ t => t.occupancy = k)

theorem constructScratch_produces {how : Init} {args : List Arg} (quiet : s.occupancy.scratch = false)
    (live : ∀ v ∈ args, s.occupancy.live v.loc = true) :
    Produces s.occupancy (constructT b how .scratch args s) := by
  have operands : ∀ l ∈ args.map Arg.loc, s.occupancy.live l = true := by simpa using live
  have empty : (value s .scratch).isSome = false := by rw [value_isSome]; exact quiet
  unfold Produces
  rw [constructT_eq, if_neg (by simp [empty]), if_pos (all_live operands)]
  dsimp only
  cases (b (trace s) (.construct how .scratch args) (value s)).threw with
  | none => exact congrArg (fun k => { k with scratch := true }) (update_occupancy operands _)
  | some e => exact update_occupancy operands _

theorem returned_produces {v : Arg} (quiet : s.occupancy.scratch = false)
    (live : s.occupancy.live v.loc = true) : Produces s.occupancy (Accessor.returned b v s) := by
  have one : ∀ u ∈ [v], s.occupancy.live u.loc = true := by simpa using live
  unfold Accessor.returned
  cases v.ty <;> exact constructScratch_produces quiet one

theorem alternative_produces {isRvalue : Bool} {v : Arg} (quiet : s.occupancy.scratch = false)
    (live : s.occupancy.live v.loc = true) :
    Produces s.occupancy (Accessor.alternative b impl isRvalue v s) := by
  unfold Accessor.alternative
  cases impl with
  | union _ =>
    cases isRvalue with
    | false => exact constructScratch_produces quiet (by simpa using live)
    | true => exact returned_produces quiet live
  | aligned _ => exact returned_produces quiet live

theorem get_engaged {this : ObjId} {cat : Cat} (full : s.occupancy.flag this = some true) :
    (Accessor.get engaged this cat : Doc α (Thrown ε) Arg) s = .ok ⟨.contained this, cat, .self⟩ s := by
  simp only [Accessor.get, bind_apply]
  rw [andThen_ok (engaged_holds full)]
  rfl

section Tested

variable {this : ObjId} {init : Bool} (here : s.occupancy.flag this = some init)

include here

theorem value_engaged (cat : Cat) : (Accessor.value engaged this cat : Doc α (Thrown ε) Arg) s =
    if init then .ok ⟨.contained this, cat, .self⟩ s else .thrown .badOptionalAccess s := by
  simp only [Accessor.value, bind_apply]
  rw [andThen_ok (engaged_holds here)]
  cases init with
  | true => exact get_engaged here
  | false => rfl

theorem getValueOr_engaged (isConst : Bool) (y : Nat) :
    (Accessor.getValueOr impl engaged this isConst y : Doc α (Thrown ε) Arg) s =
      .ok ⟨if init then .contained this else .var y, if isConst then .constLvalue else .lvalue, .self⟩ s := by
  simp only [Accessor.getValueOr, bind_apply]
  rw [andThen_ok (engaged_holds here)]
  cases init with
  | true =>
    cases impl with
    | union _ => rfl
    | aligned _ => exact get_engaged here
  | false => rfl

theorem valueOr_engaged (isRvalue : Bool) (v : Arg) : Accessor.valueOr b impl engaged this isRvalue v s =
    if init then Accessor.contained b engaged this isRvalue s else Accessor.alternative b impl isRvalue v s := by
  simp only [Accessor.valueOr, bind_apply]
  rw [andThen_ok (engaged_holds here)]
  cases init <;> rfl

theorem valueOrEval_engaged (isRvalue : Bool) (f : (Loc → Option α) → Except ε Arg) :
    Accessor.valueOrEval b impl engaged this isRvalue f s =
      if init then Accessor.contained b engaged this isRvalue s
      else match f (value s) with
        | .ok v => Accessor.alternative b impl isRvalue v s
        | .error e => .thrown (.user e) s := by
  simp only [Accessor.valueOrEval, bind_apply]
  rw [andThen_ok (engaged_holds here)]
  cases init with
  | true => rfl
  | false =>
    simp only [Bool.false_eq_true, if_false, bind_apply]
    unfold andThen Accessor.callSupplier
    cases f (value s) <;> rfl

end Tested

theorem contained_produces {this : ObjId} {isRvalue : Bool} (quiet : s.occupancy.scratch = false)
    (full : s.occupancy.flag this = some true) :
    Produces s.occupancy (Accessor.contained b engaged this isRvalue s) := by
  simp only [Accessor.contained, bind_apply]
  rw [andThen_ok (get_engaged full)]
  exact returned_produces quiet (by simp [Occupancy.live, full])

theorem assignResult_steady {x : Nat} {k : Occupancy} (quiet : k.scratch = false)
    (made : s.occupancy = { k with scratch := true }) : Steady k (Accessor.assignResult b x s) := by
  have held : s.occupancy.live .scratch = true := by rw [made]; rfl
  have assigned : (assignT b (.var x) ⟨.scratch, .rvalue, .self⟩ s).Holds _ _ :=
    assignT_holds b False rfl held False.elim
  have ended : ∀ t : State α, t.occupancy = s.occupancy →
      ((destroyT .scratch : Doc α (Thrown ε) Unit) t).Holds (fun _ u => u.occupancy = k) (fun _ u => u.occupancy = k) := by
    intro t same
    refine (destroyScratch_holds (by rw [same]; exact held)).mono (fun _ u gone => ?_) (fun _ _ none => none)
    rw [gone, same, made, ← quiet]
  exact holds_bracket assigned (fun _ t undone => ended t undone.1) fun _ t same => ended t same

theorem produced_steady {x : Nat} {c : Doc α (Thrown ε) Unit} (quiet : s.occupancy.scratch = false)
    (produces : Produces s.occupancy (c s)) :
    Steady s.occupancy ((c >>= fun _ => Accessor.assignResult b x) s) :=
  holds_andThen produces fun _ _ made => assignResult_steady quiet made

/-- A new optional with the `T` that a function returned. -/
theorem fromResult_holds {r : Nat} {y : α} (quiet : s.occupancy.scratch = false)
    (absent : s.occupancy.flag (.named r) = none) :
    (Accessor.fromResult (exec b (style b E impl)) r y s).Holds
      (fun _ t => t.occupancy = s.occupancy.set (.named r) (some true)) (fun _ t => t.occupancy = s.occupancy) := by
  have empty : (vacant .scratch : Doc α (Thrown ε) Unit) s = .ok () s :=
    if_neg (by rw [value_isSome]; simp [Occupancy.live, quiet])
  simp only [Accessor.fromResult, bind_apply]
  rw [andThen_ok empty]
  have placed : ((write fun s => place s .scratch y : Doc α (Thrown ε) Unit) s).Holds
      (fun _ t => t.occupancy = { s.occupancy with scratch := true }) (fun _ t => t.occupancy = s.occupancy) := rfl
  refine holds_andThen placed fun _ t made => ?_
  have held : t.occupancy.live .scratch = true := by rw [made]; rfl
  have there : t.occupancy.flag (.named r) = none := by rw [made, absent]
  have new : ((exec b (style b E impl)) (.valueCtor r .scratch .rvalue) t).Holds
      (fun _ u => u.occupancy = t.occupancy.set (.named r) (some true)) (fun _ u => u.occupancy = t.occupancy) := by
    have created : (newOptional (.named r) (create b .direct (.named r) [⟨.scratch, .rvalue, .self⟩]) t).Holds _ _ :=
      newInPlace_holds b there (by simpa using held)
    have passed : ((exec b (style b E impl)) (.valueCtor r .scratch .rvalue) t).Holds
        (fun _ u => u.occupancy = t.occupancy.set (.named r) (some true)) (fun _ u => Undone False t u) := by
      cases impl <;> exact created
    exact passed.mono (fun _ _ done => done) fun _ _ undone => undone.1
  refine holds_bracket new (fun _ u same => ?_) fun _ u made' => ?_
  · refine (destroyScratch_holds (by rw [same]; exact held)).mono (fun _ v gone => ?_) (fun _ _ none => none)
    rw [gone, same, made, ← quiet]
  · have still : u.occupancy.scratch = true := by rw [made']; exact held
    refine (destroyScratch_holds still).mono (fun _ v gone => ?_) (fun _ _ none => none)
    rw [gone, made', made, ← quiet]
    rfl

/-! ### Statements -/

/-- A legal statement, read off the document. -/
def Allowed (s : State α) : Statement α ε → Prop
  | .operation op => Legal op s.occupancy ∧ op.SelfFree
  | .value _ this _ | .getValueOr _ this _ _ => ∃ init, s.occupancy.flag (.named this) = some init
  | .valueOr _ this _ v =>
    (∃ init, s.occupancy.flag (.named this) = some init) ∧ s.occupancy.live v.loc = true
  | .valueOrEval _ this _ f => (∃ init, s.occupancy.flag (.named this) = some init) ∧
    ∀ v, f (value s) = .ok v → s.occupancy.live v.loc = true
  | .map r this _ _ | .flatMap r this _ _ =>
    (∃ init, s.occupancy.flag (.named this) = some init) ∧ s.occupancy.flag (.named r) = none

end Spec

/-- The optionals are as they were, but for a new one. -/
def Statement.Leaves (s : Statement α ε) (k k' : Spec.Occupancy) : Prop :=
  match s with
  | .operation _ => True
  | .map r _ _ _ | .flatMap r _ _ _ => ∃ init, k' = k.set (.named r) (some init)
  | _ => k' = k

/-- The same after a throw, when there is no new one either. -/
def Statement.Undoes (s : Statement α ε) (k k' : Spec.Occupancy) : Prop :=
  match s with
  | .operation _ => True
  | _ => k' = k

namespace Spec

variable {b E impl} {s : State α}

variable (b E impl) in
theorem named_holds {r : Nat} (absent : s.occupancy.flag (.named r) = none) :
    (exec b (style b E impl) (.noneCtor r) s).Holds
      (fun _ t => t.occupancy = s.occupancy.set (.named r) (some false)) (fun _ t => t.occupancy = s.occupancy) :=
  appear_occupancy absent

theorem value_steady {x : Nat} {v : Arg} (live : s.occupancy.live v.loc = true) :
    Steady s.occupancy (assignT b (.var x) v s) :=
  (assignT_holds b False rfl live False.elim).mono (fun _ _ same => same) fun _ _ undone => undone.1

theorem callFunction_holds {β : Type} {f : α → Except ε β} {v : Arg} (live : s.occupancy.live v.loc = true) :
    (Accessor.callFunction f v s).Holds (fun _ t => t = s) (fun _ t => t = s) := by
  rw [← value_isSome, Option.isSome_iff_exists] at live
  obtain ⟨x, held⟩ := live
  simp only [Accessor.callFunction, held]
  cases f x <;> exact rfl

variable (b E impl) in
theorem flatMap_leaves {r this : Nat} {cat : Cat} {f : α → Except ε (Option α)}
    (quiet : s.occupancy.scratch = false) (allowed : Allowed s (.flatMap r this cat f)) :
    (perform b E impl (.flatMap r this cat f) s).Holds
      (fun _ t => (Statement.flatMap r this cat f).Leaves s.occupancy t.occupancy)
      (fun _ t => (Statement.flatMap r this cat f).Undoes s.occupancy t.occupancy) := by
  obtain ⟨⟨init, here⟩, absent⟩ := allowed
  simp only [perform, Statement.exec, Accessor.flatMap, bind_apply]
  rw [andThen_ok (engaged_holds here)]
  cases init with
  | false => exact (named_holds b E impl absent).mono (fun _ _ made => ⟨false, made⟩) fun _ _ same => same
  | true =>
    simp only [if_true, bind_apply]
    rw [andThen_ok (get_engaged here)]
    refine holds_andThen ((callFunction_holds (by simp [Occupancy.live, here])).mono (fun _ _ same => same)
      fun _ _ same => congrArg State.occupancy same) fun y t same => ?_
    subst same
    cases y with
    | some y => exact (fromResult_holds quiet absent).mono (fun _ _ made => ⟨true, made⟩) fun _ _ same => same
    | none => exact (named_holds b E impl absent).mono (fun _ _ made => ⟨false, made⟩) fun _ _ same => same

variable (b E impl) in
theorem perform_leaves (stmt : Statement α ε) (quiet : s.occupancy.scratch = false) (allowed : Allowed s stmt)
    (accesses : ∀ op, stmt ≠ .operation op) :
    (perform b E impl stmt s).Holds (fun _ t => stmt.Leaves s.occupancy t.occupancy)
      (fun _ t => stmt.Undoes s.occupancy t.occupancy) := by
  cases stmt with
  | operation op => exact (accesses op rfl).elim
  | value x this cat =>
    obtain ⟨init, here⟩ := allowed
    simp only [perform, Statement.exec, bind_apply]
    unfold andThen
    rw [value_engaged here]
    cases init with
    | true => exact value_steady (by simp [Occupancy.live, here])
    | false => exact rfl
  | getValueOr x this isConst y =>
    obtain ⟨init, here⟩ := allowed
    simp only [perform, Statement.exec, bind_apply]
    rw [andThen_ok (getValueOr_engaged here isConst y)]
    cases init with
    | true => exact value_steady (by simp [Occupancy.live, here])
    | false => exact value_steady rfl
  | valueOr x this isRvalue v =>
    obtain ⟨⟨init, here⟩, live⟩ := allowed
    refine produced_steady quiet ?_
    rw [valueOr_engaged here]
    cases init with
    | true => exact contained_produces quiet here
    | false => exact alternative_produces quiet live
  | valueOrEval x this isRvalue f =>
    obtain ⟨⟨init, here⟩, live⟩ := allowed
    refine produced_steady quiet ?_
    rw [valueOrEval_engaged here]
    cases init with
    | true => exact contained_produces quiet here
    | false =>
      cases supplied : f (value s) with
      | ok v => exact alternative_produces quiet (live v supplied)
      | error e => exact rfl
  | map r this cat f =>
    rw [map_perform]
    exact flatMap_leaves b E impl quiet allowed
  | flatMap r this cat f => exact flatMap_leaves b E impl quiet allowed

end Spec

/-! ### Programs -/

/-- The optional that a statement with an accessor makes. -/
def Statement.creates : Statement α ε → List Nat
  | .map r _ _ _ | .flatMap r _ _ _ => [r]
  | _ => []

theorem Statement.Leaves.quiet {s : Statement α ε} (accesses : ∀ op, s ≠ .operation op) {k k' : Spec.Occupancy}
    (leaves : s.Leaves k k') (quiet : k.Quiet) : k'.Quiet := by
  cases s with
  | operation op => exact (accesses op rfl).elim
  | value | getValueOr | valueOr | valueOrEval =>
    obtain rfl : k' = k := leaves
    exact quiet
  | map r | flatMap r =>
    obtain ⟨init, rfl⟩ := leaves
    exact quiet.set r _

theorem Statement.Undoes.same {s : Statement α ε} (accesses : ∀ op, s ≠ .operation op) {k k' : Spec.Occupancy}
    (undoes : s.Undoes k k') : k' = k := by
  cases s with
  | operation op => exact (accesses op rfl).elim
  | value | getValueOr | valueOr | valueOrEval | map | flatMap => exact undoes

theorem Statement.Leaves.others {s : Statement α ε} (accesses : ∀ op, s ≠ .operation op) {k k' : Spec.Occupancy}
    (leaves : s.Leaves k k') {o : Nat} (other : o ∉ s.creates) : k'.flag (.named o) = k.flag (.named o) := by
  cases s with
  | operation op => exact (accesses op rfl).elim
  | value | getValueOr | valueOr | valueOrEval =>
    obtain rfl : k' = k := leaves
    rfl
  | map r | flatMap r =>
    obtain ⟨init, rfl⟩ := leaves
    refine k.set_other _ fun same => other ?_
    rw [ObjId.named.inj same]
    exact .head _

theorem Represents.allowed {w : World α} {t : Spec.State α} (rep : Represents w t) {s : Statement α ε}
    (legal : s.Legal w) : Spec.Allowed t s := by
  have present : ∀ {o}, w.flag o ≠ none → ∃ init, t.occupancy.flag o = some init := by
    intro o there
    rw [← rep.flag_eq]
    exact Option.ne_none_iff_exists'.mp there
  have live : ∀ {l}, (w.value l).isSome = true → t.occupancy.live l = true := by
    intro l held
    rw [← Spec.value_isSome, ← rep.value_eq]
    exact held
  cases s with
  | operation op => exact ⟨rep.legal legal.1, legal.2⟩
  | value x this cat | getValueOr x this isConst y => exact present legal
  | valueOr x this isRvalue v => exact ⟨present legal.1, live legal.2⟩
  | valueOrEval x this isRvalue f =>
    refine ⟨present legal.1, fun v supplied => live (legal.2 v ?_)⟩
    rw [← supplied, ← rep.value_eq]
    rfl
  | map r this cat f | flatMap r this cat f => exact ⟨present legal.1, by rw [← rep.flag_eq, legal.2]⟩

section Programs

variable {b E impl} {w w' : World α} {s : Statement α ε}

theorem Statement.Legal.fresh (legal : s.Legal w) :
    ∀ op, s = .operation op → ∀ o ∈ op.creates, o ∉ op.objects := by
  intro op same
  subst same
  exact legal.1.fresh

variable (b E impl) in
theorem Statement.perform_quiet (settled : w.Settled) (legal : s.Legal w) :
    (Spec.perform b E impl s w.document).Holds (fun _ => Spec.State.Quiet) (fun _ => Spec.State.Quiet) := by
  have quiet := settled.document_quiet
  have allowed := (consistent_represents settled.consistent).allowed legal
  by_cases accesses : ∀ op, s ≠ .operation op
  · refine (Spec.perform_leaves b E impl s quiet.1 allowed accesses).mono (fun _ t leaves => leaves.quiet accesses quiet)
      fun _ t undoes => ?_
    rw [Spec.State.Quiet, undoes.same accesses]
    exact quiet
  · obtain ⟨op, rfl⟩ : ∃ op, s = .operation op := by simpa using accesses
    exact Spec.exec_quiet b E impl quiet allowed.1 allowed.2

theorem Statement.exec_settled (settled : w.Settled) (legal : s.Legal w) :
    ((impl.program E b).exec s w).Holds (fun _ => World.Settled) (fun _ => World.Settled) := by
  have rep := consistent_represents settled.consistent
  have matched := s.exec_implements b E impl legal.fresh w _ rep
  refine (matched.holds (Statement.perform_quiet b E impl settled legal)).mono (fun _ u after => ?_) (fun _ u after => ?_) <;>
    obtain ⟨t, represents, quiet⟩ := after <;> exact represents.settled quiet

/-- A statement with an accessor changes no flag: on return there may be a new optional, after a throw
there is none. -/
theorem Statement.exec_flags (settled : w.Settled) (legal : s.Legal w) (accesses : ∀ op, s ≠ .operation op) :
    ((impl.program E b).exec s w).Holds (fun _ t => ∀ o, o ∉ s.creates → t.flag (.named o) = w.flag (.named o))
      (fun _ t => t.flag = w.flag) := by
  have rep := consistent_represents settled.consistent
  have matched := s.exec_implements b E impl legal.fresh w _ rep
  have leaves := Spec.perform_leaves b E impl s settled.document_quiet.1
    (rep.allowed legal) accesses
  refine (matched.holds leaves).mono (fun _ u after => ?_) (fun _ u after => ?_)
  · obtain ⟨t, represents, leaves⟩ := after
    intro o other
    rw [represents.flag_eq, rep.flag_eq, leaves.others accesses other]
  · obtain ⟨t, represents, undoes⟩ := after
    funext o
    rw [represents.flag_eq, rep.flag_eq, undoes.same accesses]

/-- Programs with accessors are safe. At every point of a run, whatever was thrown before, the flags are
right and there are no temporaries; no statement goes wrong; and accessors leave the flags alone. -/
theorem Impl.program_safe {var : Nat → α} {events : List (Statement α ε × Option (Thrown ε))}
    (run : (impl.program E b).Run (World.initial var) events w) :
    w.Settled ∧ ∀ s : Statement α ε, s.Legal w →
      ((impl.program E b).exec s w).Holds (fun _ => World.Settled) (fun _ => World.Settled) ∧
      ((∀ op, s ≠ .operation op) → ((impl.program E b).exec s w).Holds
        (fun _ t => ∀ o, o ∉ s.creates → t.flag (.named o) = w.flag (.named o)) (fun _ t => t.flag = w.flag)) := by
  have settled : w.Settled := by
    refine run.invariant (I := World.Settled) ?_ (World.initial_settled var)
    intro s u legal before
    exact Statement.exec_settled before legal
  exact ⟨settled, fun s legal => ⟨Statement.exec_settled settled legal, Statement.exec_flags settled legal⟩⟩

end Programs

/-- `optional<int> o; x = o.value();` which throws, then `x = o.value_or(y);` and a new optional. -/
theorem Impl.program_safe_value :
    ∃ w : World Int, ((Impl.aligned false).program (.nontrivial Int) (intLike fun _ _ => (none : Option (Thrown Unit)))).Run
        (World.initial fun x => x) [(.operation (.defaultCtor 0), none), (.value 3 0 .lvalue, some .badOptionalAccess),
          (.valueOr 3 0 true ⟨.var 5, .lvalue, .other⟩, none), (.map 1 0 .lvalue fun v => .ok v, none)] w ∧
      w.Settled ∧ w.var 3 = 5 := by
  obtain ⟨w, run, var⟩ : ∃ w : World Int, ((Impl.aligned false).program (.nontrivial Int)
        (intLike fun _ _ => (none : Option (Thrown Unit)))).Run
      (World.initial fun x => x) [(.operation (.defaultCtor 0), none), (.value 3 0 .lvalue, some .badOptionalAccess),
        (.valueOr 3 0 true ⟨.var 5, .lvalue, .other⟩, none), (.map 1 0 .lvalue fun v => .ok v, none)] w ∧
      w.var 3 = 5 := by
    refine ⟨_, .cons ?_ ⟨rfl, rfl⟩ (.cons ?_ ⟨rfl, rfl⟩ (.cons ?_ ⟨rfl, rfl⟩ (.cons ?_ ⟨rfl, rfl⟩ (.nil _)))), rfl⟩
    · exact show (Op.defaultCtor 0).Legal _ ∧ (Op.defaultCtor 0).SelfFree from ⟨by decide, by decide⟩
    · exact Option.some_ne_none false
    · exact show _ ∧ _ from ⟨Option.some_ne_none false, rfl⟩
    · exact show _ ∧ _ from ⟨Option.some_ne_none false, rfl⟩
  exact ⟨w, run, (Impl.program_safe run).1, var⟩

end BoostOptional
