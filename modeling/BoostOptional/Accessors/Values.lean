import BoostOptional.Accessors.Safety
import BoostOptional.Elementary.Histories
import BoostOptional.Values.Exceptions

/-!
What a statement with an accessor computes, in a table over values: `value()` throws when there is none,
and an alternative, a function or a supplier is used when it has to be and not otherwise.
-/

namespace BoostOptional
open Effect Prog Memory

variable {α ε : Type} {R : Semantics α} {E : Element α} {impl : Impl}

/-- The new optional `o` from what `f` makes of `x`. -/
def mapEffect (o : Nat) (x : Option α) (f : α → Except ε (Option α)) (vals : Values α) :
    Values α × Option (Thrown ε) :=
  match x with
  | none => (Values.clear (.contained (.named o)) vals, none)
  | some v =>
    match f v with
    | .ok y => (Function.update vals (.contained (.named o)) y, none)
    | .error e => (vals, some (.user e))

section MapEffect

variable {o : Nat} {v : α} {f : α → Except ε (Option α)} {vals : Values α}

theorem mapEffect_ok {y : Option α} (run : f v = .ok y) :
    mapEffect o (some v) f vals = (Function.update vals (.contained (.named o)) y, none) := by
  simp only [mapEffect, run]

theorem mapEffect_error {e : ε} (run : f v = .error e) : mapEffect o (some v) f vals = (vals, some (.user e)) := by
  simp only [mapEffect, run]

end MapEffect

/-- The values after a statement, and what it throws. -/
def Statement.effect (R : Semantics α) (E : Element α) (impl : Impl) (vals : Values α) :
    Statement α ε → Values α × Option (Thrown ε)
  | .operation op => (op.effect R E impl vals, none)
  | .value x this cat =>
    if (vals (.contained (.named this))).isSome then
      (R.receive (.var x) ⟨.contained (.named this), cat, .self⟩ vals, none)
    else (vals, some .badOptionalAccess)
  | .getValueOr x this isConst y =>
    let l := if (vals (.contained (.named this))).isSome then Loc.contained (.named this) else .var y
    (R.receive (.var x) ⟨l, if isConst then .constLvalue else .lvalue, .self⟩ vals, none)
  | .valueOr x this isRvalue v =>
    if (vals (.contained (.named this))).isSome then
      (R.receive (.var x) ⟨.contained (.named this), if isRvalue then .rvalue else .constLvalue, .self⟩ vals, none)
    else (R.receive (.var x) v vals, none)
  | .valueOrEval x this isRvalue f =>
    if (vals (.contained (.named this))).isSome then
      (R.receive (.var x) ⟨.contained (.named this), if isRvalue then .rvalue else .constLvalue, .self⟩ vals, none)
    else match f vals with
      | .ok v => (R.receive (.var x) v vals, none)
      | .error e => (vals, some (.user e))
  | .map r this _ f => mapEffect r (vals (.contained (.named this))) (fun v => (f v).map some) vals
  | .flatMap r this _ f => mapEffect r (vals (.contained (.named this))) f vals

/-- No optional is moved into itself, and an alternative is a `T` or something to convert to one. -/
def Statement.Unaliased : Statement α ε → Prop
  | .operation op => op.Unaliased
  | .valueOr _ _ _ v => v.ty ≠ .inner
  | .valueOrEval _ _ _ f => ∀ vals v, f vals = .ok v → v.ty ≠ .inner
  | _ => True

namespace Spec

variable {b : Behaviour α (Thrown ε)} {s : State α}

/-! ### Accessors -/

theorem returned_computes (regular : R.Regular E b) {v : Arg} (typed : v.ty ≠ .inner) :
    (Accessor.returned b v s).Returns fun _ t => value t = R.receive .scratch v (value s) ∧
      value s .scratch = none ∧ (value s v.loc).isSome = true := by
  unfold Accessor.returned
  cases ty : v.ty with
  | inner => exact (typed ty).elim
  | self =>
    refine (constructT_computes regular .direct .scratch [v]).mono fun _ t made => ?_
    obtain ⟨made, vacant, live⟩ := made
    obtain ⟨x, held⟩ := Option.isSome_iff_exists.mp (live v (.head _))
    exact ⟨made.trans (Semantics.construct_receive held), vacant, live v (.head _)⟩
  | other =>
    refine (constructT_computes regular .implicit .scratch [v]).mono fun _ t made => ?_
    obtain ⟨made, vacant, live⟩ := made
    obtain ⟨x, held⟩ := Option.isSome_iff_exists.mp (live v (.head _))
    exact ⟨made.trans (Semantics.construct_implicit ty held), vacant, live v (.head _)⟩

theorem alternative_computes (regular : R.Regular E b) {isRvalue : Bool} {v : Arg} (typed : v.ty ≠ .inner) :
    (Accessor.alternative b impl isRvalue v s).Returns fun _ t => value t = R.receive .scratch v (value s) ∧
      value s .scratch = none ∧ (value s v.loc).isSome = true := by
  have direct : (constructT b .direct .scratch [v] s).Returns fun _ t =>
      value t = R.receive .scratch v (value s) ∧ value s .scratch = none ∧ (value s v.loc).isSome = true := by
    refine (constructT_computes regular .direct .scratch [v]).mono fun _ t made => ?_
    obtain ⟨made, vacant, live⟩ := made
    obtain ⟨x, held⟩ := Option.isSome_iff_exists.mp (live v (.head _))
    exact ⟨made.trans (Semantics.construct_receive held), vacant, live v (.head _)⟩
  unfold Accessor.alternative
  cases impl with
  | union _ =>
    cases isRvalue with
    | false => exact direct
    | true => exact returned_computes regular typed
  | aligned _ => exact returned_computes regular typed

/-- The result of an accessor is assigned to the variable as its source would be. -/
theorem produced_computes (regular : R.Regular E b) {c : Doc α (Thrown ε) Unit} {x : Nat} {v : Arg}
    (produced : (c s).Returns fun _ t => value t = R.receive .scratch v (value s) ∧
      value s .scratch = none ∧ (value s v.loc).isSome = true) :
    ((c >>= fun _ => Accessor.assignResult b x) s).Returns fun _ t => value t = R.receive (.var x) v (value s) := by
  refine returns_andThen produced fun _ t made => ?_
  obtain ⟨made, vacant, live⟩ := made
  obtain ⟨y, held⟩ := Option.isSome_iff_exists.mp live
  have apart : Unaliased (.var x) ⟨.scratch, .rvalue, .self⟩ := .inl (by simp)
  refine returns_bracket (assignT_computes regular apart) fun _ u assigned => ?_
  have own : ∀ x, Loc.scratch ≠ .var x := by simp
  refine (destroyT_computes own).mono fun _ r gone => ?_
  rw [gone, assigned, made]
  exact Semantics.receive_through held vacant (by simp)

theorem contained_engaged {this : ObjId} {isRvalue : Bool} (full : s.occupancy.flag this = some true) :
    Accessor.contained b engaged this isRvalue s =
      Accessor.returned b ⟨.contained this, if isRvalue then .rvalue else .constLvalue, .self⟩ s := by
  simp only [Accessor.contained, bind_apply]
  rw [andThen_ok (get_engaged full)]

/-! ### The optional that a function makes -/

theorem vacant_computes (dst : Loc) :
    ((vacant dst : Doc α (Thrown ε) Unit) s).Returns fun _ t => t = s ∧ value s dst = none := by
  unfold vacant
  split
  · trivial
  · exact ⟨rfl, by simp_all⟩

theorem place_computes (y : α) : ((write fun s => place s .scratch y : Doc α (Thrown ε) Unit) s).Returns
    fun _ t => value t = Function.update (value s) .scratch (some y) := by
  change value (place s .scratch y) = _
  funext l
  rw [place_value, Function.update_apply]

theorem fromResult_computes (regular : R.Regular E b) (r : Nat) (y : α) :
    (Accessor.fromResult (exec b (style b E impl)) r y s).Returns fun _ t =>
      value t = Function.update (value s) (.contained (.named r)) (some y) := by
  refine returns_andThen (vacant_computes .scratch) fun _ t vacated => ?_
  obtain ⟨rfl, vacated⟩ := vacated
  refine returns_andThen (place_computes y) fun _ u made => ?_
  have built : (exec b (style b E impl) (.valueCtor r .scratch .rvalue) u).Returns fun _ v =>
      value v = R.receive (.contained (.named r)) ⟨.scratch, .rvalue, .self⟩ (value u) :=
    exec_computes regular impl trivial
  refine returns_bracket built fun _ v built => ?_
  have own : ∀ x, Loc.scratch ≠ .var x := by simp
  refine (destroyT_computes own).mono fun _ r gone => ?_
  rw [gone, built, made]
  funext l
  by_cases there : l = .scratch
  · subst there
    simp [Values.clear, vacated]
  · have unmoved : ¬ Loc.scratch = l := fun same => there same.symm
    by_cases here : l = .contained (.named ‹Nat›)
    · subst here
      simp [Values.clear, Semantics.receive, R.make_self]
    · simp [Values.clear, Semantics.receive, Semantics.leave, moves, here, there, unmoved]

/-! ### Statements -/

theorem flag_value {o : ObjId} {init : Bool} (here : s.occupancy.flag o = some init) :
    (value s (.contained o)).isSome = init := by
  rw [value_isSome, Occupancy.live, here]
  cases init <;> rfl

theorem callFunction_ok {β : Type} {f : α → Except ε β} {v : Arg} {x : α} {y : β}
    (held : value s v.loc = some x) (run : f x = .ok y) : Accessor.callFunction f v s = .ok y s := by
  simp only [Accessor.callFunction, held, run]

theorem callFunction_error {β : Type} {f : α → Except ε β} {v : Arg} {x : α} {e : ε}
    (held : value s v.loc = some x) (run : f x = .error e) :
    Accessor.callFunction f v s = .thrown (.user e) s := by
  simp only [Accessor.callFunction, held, run]

end Spec

end BoostOptional
