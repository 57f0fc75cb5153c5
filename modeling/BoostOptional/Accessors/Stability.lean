import BoostOptional.Accessors.Safety
import BoostOptional.Engagement.Stability

/-!
References to the contained value, in programs with accessors. An accessor destroys nothing but its own
temporary.
-/

namespace BoostOptional
open Effect Prog Memory

variable {α ε : Type}

namespace Spec

variable {b : Behaviour α (Thrown ε)} {E : Element α} {impl : Impl} {p : ObjId}

theorem get_spares (this : ObjId) (cat : Cat) :
    Keeps (Spares p) (Accessor.get engaged this cat : Doc α (Thrown ε) Arg) :=
  keeps_bind engaged_spares fun _ => keeps_ite (keeps_pure _) (keeps_fail _)

theorem returned_spares (v : Arg) : Keeps (Spares p) (Accessor.returned b v : Doc α (Thrown ε) Unit) := by
  unfold Accessor.returned
  cases v.ty <;> exact constructT_spares b _ _ _

theorem alternative_spares (isRvalue : Bool) (v : Arg) :
    Keeps (Spares p) (Accessor.alternative b impl isRvalue v : Doc α (Thrown ε) Unit) := by
  unfold Accessor.alternative
  cases impl with
  | union _ =>
    cases isRvalue with
    | false => exact constructT_spares b _ _ _
    | true => exact returned_spares v
  | aligned _ => exact returned_spares v

theorem contained_spares (this : ObjId) (isRvalue : Bool) :
    Keeps (Spares p) (Accessor.contained b engaged this isRvalue) :=
  keeps_bind (get_spares _ _) fun v => returned_spares v

theorem assignResult_spares (x : Nat) :
    Keeps (Spares p) (Accessor.assignResult b x : Doc α (Thrown ε) Unit) := fun s =>
  kept_bracket (assignT_spares b _ _ s) (destroyT_spares nofun)

theorem callSupplier_spares (f : (Loc → Option α) → Except ε Arg) :
    Keeps (Spares p) (Accessor.callSupplier f : Doc α (Thrown ε) Arg) := by
  intro s
  unfold Accessor.callSupplier
  cases f (value s) with
  | ok v => exact refl_of (Spares p) s
  | error e => exact refl_of (Spares p) s

theorem callFunction_spares {β : Type} (f : α → Except ε β) (v : Arg) :
    Keeps (Spares p) (Accessor.callFunction f v : Doc α (Thrown ε) β) := by
  intro s
  unfold Accessor.callFunction
  cases value s v.loc with
  | none => trivial
  | some x =>
    dsimp only
    cases f x with
    | ok y => exact refl_of (Spares p) s
    | error e => exact refl_of (Spares p) s

theorem fromResult_spares (r : Nat) (y : α) :
    Keeps (Spares p) (Accessor.fromResult (exec b (style b E impl)) r y) := by
  have vacated : Keeps (Spares p) (vacant .scratch : Doc α (Thrown ε) Unit) := by
    intro s
    unfold vacant
    split
    · trivial
    · exact refl_of (Spares p) s
  have made : Keeps (Spares p) (exec b (style b E impl) (.valueCtor r .scratch .rvalue)) :=
    newOptional_spares (createFrom_spares b _ _)
  refine keeps_bind vacated fun _ => keeps_bind (fun s => refl_of (Spares p) s) fun _ s => ?_
  exact kept_bracket (made s) (destroyT_spares nofun)

theorem noneCtor_spares (r : Nat) : Keeps (Spares p) (exec b (style b E impl) (.noneCtor r)) :=
  appear_spares

theorem flatMapped_spares (r : Nat) (f : α → Except ε (Option α)) (v : Arg) :
    Keeps (Spares p) (Accessor.flatMapped (exec b (style b E impl)) r f v) := by
  refine keeps_bind (callFunction_spares f v) fun y => ?_
  cases y with
  | some y => exact fromResult_spares r y
  | none => exact noneCtor_spares r

theorem perform_spares (stmt : Statement α ε) (accesses : ∀ op, stmt ≠ .operation op) :
    Keeps (Spares p) (perform b E impl stmt) := by
  cases stmt with
  | operation op => exact (accesses op rfl).elim
  | value x this cat =>
    refine keeps_bind ?_ fun v => assignT_spares b _ _
    exact keeps_bind engaged_spares fun _ => keeps_ite (get_spares _ _) fun s => refl_of (Spares p) s
  | getValueOr x this isConst y =>
    refine keeps_bind ?_ fun v => assignT_spares b _ _
    refine keeps_bind engaged_spares fun _ => keeps_ite ?_ (keeps_pure _)
    cases impl with
    | union _ => exact keeps_pure _
    | aligned _ => exact get_spares _ _
  | valueOr x this isRvalue v =>
    refine keeps_bind ?_ fun _ => assignResult_spares x
    exact keeps_bind engaged_spares fun _ => keeps_ite (contained_spares _ _) (alternative_spares _ _)
  | valueOrEval x this isRvalue f =>
    refine keeps_bind ?_ fun _ => assignResult_spares x
    exact keeps_bind engaged_spares fun _ => keeps_ite (contained_spares _ _)
      (keeps_bind (callSupplier_spares f) fun v => alternative_spares _ v)
  | map r this cat f =>
    refine keeps_bind engaged_spares fun _ => keeps_ite ?_ (noneCtor_spares r)
    refine keeps_bind (get_spares _ _) fun v => ?_
    rw [Accessor.mapped_eq]
    exact flatMapped_spares r _ v
  | flatMap r this cat f =>
    exact keeps_bind engaged_spares fun _ => keeps_ite
      (keeps_bind (get_spares _ _) fun v => flatMapped_spares r f v) (noneCtor_spares r)

/-- A statement that does not replace the value of `o` leaves it there, or leaves `o` empty. -/
theorem perform_stays {s : State α} {stmt : Statement α ε} {o : Nat} (quiet : s.Quiet) (allowed : Allowed s stmt)
    (retains : ∀ op, stmt = .operation op → op.replaces ≠ some o)
    (full : s.occupancy.flag (.named o) = some true) :
    (perform b E impl stmt s).Kept (Stays (.named o)) s := by
  by_cases accesses : ∀ op, stmt ≠ .operation op
  · exact stays_of_spares (perform_spares stmt accesses)
  · obtain ⟨op, rfl⟩ : ∃ op, stmt = .operation op := by simpa using accesses
    exact exec_stays b E impl quiet allowed.1 (retains op rfl) full

end Spec

end BoostOptional
