import BoostOptional.Reference.Passing
import BoostOptional.Safety.Lifetime

/-!
An optional value made from an optional reference copies the referee: it is passed on as an lvalue
only and keeps its value, the reference stays bound, and the target has a value when the reference
was bound. The assignments do this in the three storages and so do the constructors of the union
implementation. The constructor of `optional.hpp` from an `optional<U>&&` moves `rhs.get()`.
-/

namespace BoostOptional.Reference
open Effect Prog Memory

variable {α ε : Type}

/-- `r` is bound as it was, and its referee was passed on as an lvalue only and not modified. -/
def Unharmed (s t : State α) : Prop :=
  t.rhs = s.rhs ∧ ∀ l, s.rhs.ptr_ = some l → t.world.value l = s.world.value l ∧
    ∃ cats, passed t.world l = cats ++ passed s.world l ∧ .rvalue ∉ cats

/-- The target has a value when `r` was bound, converted from the value of the referee. -/
def Copied (convert : α → α) (U : Referee) (o : ObjId) (s t : State α) : Prop :=
  Unharmed s t ∧ t.world.flag o = some s.rhs.ptr_.isSome ∧
    ∀ l x, s.rhs.ptr_ = some l → s.world.value l = some x →
      t.world.value (.contained o) = some (converted convert U.ty x)

/-- The constructor from an rvalue moves the referee of a bound `r`, unless that is a const object
that binds to `T const&`. In direct storage whatever binds to `T const&` is copied, by the
parameter's type, and `T`'s default constructor runs first. -/
def Steals (b : Behaviour α ε) (storage : Storage) (o : ObjId) (U : Referee) (cat : Cat)
    (s : State α) : Prop :=
  cat = .rvalue ∧ s.rhs.ptr_ ≠ none ∧
    (storage = .aligned ∧ (U.isConst = false ∨ U.ty ≠ .self) ∨ storage = .direct ∧ U.ty ≠ .self ∧
      (b s.world.trace (.construct .direct (.contained o) []) s.world.value).threw = none)

section Steps

variable {w t u : World α} {l : Loc} {o : ObjId}

theorem setFlag_touched (w : World α) (l : Loc) (o : ObjId) (init : Option Bool) :
    Touched l [] w (w.setFlag o init) :=
  ⟨rfl, fun _ => by cases l <;> rfl⟩

theorem setCell_touched (apart : l ≠ .contained o) (w : World α) (c : Cell α) :
    Touched l [] w (w.setCell o c) :=
  ⟨rfl, fun _ => by
    cases l with
    | contained p =>
      have other : p ≠ o := fun same => apart (congrArg Loc.contained same)
      simp only [World.value, World.setCell, if_neg other]
    | scratch => rfl
    | var x => rfl⟩

theorem giveUp_touched (apart : l ≠ .contained o) (w : World α) : Touched l [] w (w.giveUp o) := by
  unfold World.giveUp
  cases w.cell o with
  | live v => exact ⟨rfl, (setCell_touched apart w (.stale v)).referee⟩
  | vacant | stale v | indeterminate => exact ⟨rfl, fun _ => rfl⟩

theorem initial_touched (w : World α) (l dst : Loc) (after : Loc → α) :
    Touched l [] w (log (update w [] after) (.construct .direct dst [])) :=
  ⟨rfl, fun _ => (World.called_value w [] after _ l).trans (if_neg (List.not_mem_nil))⟩

theorem storageDestructor_holds (E : Element α) (apart : l ≠ .contained o)
    (flag : w.flag o = some false) :
    (Union.storageDestructor E o w : Outcome _ ε _ _).Holds (fun _ t => Touched l [] w t)
    (fun _ _ => False) := by
  unfold Union.storageDestructor
  split
  · exact (giveUp_touched apart w).trans (setFlag_touched _ l o none)
  · simp only [bind_apply, andThen, BoostOptional.isInitialized, flag]
    exact setFlag_touched w l o none

theorem baseDestructor_holds (flag : w.flag o = some false) :
    (Aligned.baseDestructor o w : Outcome _ ε _ _).Holds (fun _ t => Touched l [] w t)
    (fun _ _ => False) := by
  simp only [Aligned.baseDestructor, Aligned.destroy, bind_apply, andThen,
    BoostOptional.isInitialized, flag]
  exact setFlag_touched w l o none

theorem releaseStorage_holds (apart : l ≠ .contained o) :
    (Direct.releaseStorage o w : Outcome _ ε _ _).Holds (fun _ t => Touched l [] w t)
    (fun _ _ => False) :=
  (setCell_touched apart w .vacant).trans (setFlag_touched _ l o none)

theorem initializeT_eq {b : Behaviour α ε} {args : List Arg} (flag : w.flag o = some false) :
    Union.initializeT b o args w = (do constructT b .direct (.contained o) args; setInit o true : Code α ε Unit) w := by
  simp only [Union.initializeT, Union.assertEmpty, bind_apply, andThen,
    BoostOptional.isInitialized, flag]
  rfl

theorem holds_onWorld {c : Code α ε Unit} {s : State α} {Q : World α → Prop} {R : ε → World α → Prop}
    (runs : (c s.world).Holds (fun _ => Q) R) :
    (onWorld c s).Holds (fun _ t => t.rhs = s.rhs ∧ Q t.world)
    (fun e t => t.rhs = s.rhs ∧ R e t.world) := by
  unfold onWorld
  cases ran : c s.world with
  | ok value v =>
    rw [ran] at runs
    exact ⟨rfl, runs⟩
  | thrown e v =>
    rw [ran] at runs
    exact ⟨rfl, runs⟩
  | fault f =>
    rw [ran] at runs
    exact runs

theorem onThrow_whenBound (value : Loc → Arg) (yes : Arg → Code α ε Unit) (no : Code α ε Unit)
    (cleanup : Prog (State α) ε Fault Unit) :
    onThrow (whenBound value yes no) cleanup ⟨w, ⟨some l⟩⟩ = onThrow
      (onWorld (yes (value l))) cleanup ⟨w, ⟨some l⟩⟩ :=
  rfl

end Steps

/-! ### Construction -/

section Construct

variable {E : Element α} {b : Behaviour α ε} {convert : α → α} (converts : Converts b convert)
variable {w : World α} {l : Loc} {x : α} {o : ObjId} {value : Loc → Arg}

/-- The outcome of a conversion that passes the referee on in the category `cat`. -/
def Passes (l : Loc) (o : ObjId) (cat : Cat) (y : α) (init : Option Bool) (w : World α)
    (rhs : OptionalRef) :
    Outcome (State α) ε Fault Unit → Prop :=
  Outcome.Holds (fun _ t => t.rhs = rhs ∧ Written l o [cat] y init w t.world)
    (fun _ t => t.rhs = rhs ∧ Touched l [cat] w t.world)

include converts in
theorem unionCtor_passes (constexprCopy : Bool) (quiet : w.value .scratch = none)
    (absent : w.flag o = none)
    (empty : w.value (.contained o) = none) (held : w.value l = some x) (here : (value l).loc = l) :
    Passes l o (value l).cat (converted convert (value l).ty x) (some true) w ⟨some l⟩
      (Union.optionalCtor E b constexprCopy o value ⟨w, ⟨some l⟩⟩) := by
  have apart : l ≠ .contained o := by
    rintro rfl
    rw [held] at empty
    cases empty
  have notScratch : l ≠ .scratch := by
    rintro rfl
    rw [held] at quiet
    cases quiet
  have alone : argCats l (value l) = [(value l).cat] := if_pos here
  have kept : ∀ init p, (w.setFlag o init).value p = w.value p := fun _ p => by cases p <;> rfl
  have held' : ∀ init, (w.setFlag o init).value (value l).loc = some x :=
    fun _ => by rw [kept, here, held]
  have live : ∀ init, ((w.setFlag o init).value l).isSome = true := fun _ => by rw [kept, held]; rfl
  cases constexprCopy with
  | true =>
    change (onWorld (Union.inPlaceStorage b o [value l]) ⟨w, ⟨some l⟩⟩).Holds _ _
    refine holds_onWorld ?_
    simp only [Union.inPlaceStorage, bind_apply, born, andThen, absent]
    have made := constructT_touches (l := l) converts .direct
      ((kept (some true) (.contained o)).trans empty) (held' _) (live _)
    rw [alone] at made
    refine (holds_onThrow made fun e t failed => ?_).mono ?_ (fun _ _ done => done)
    · exact (setFlag_touched w l o _).trans (failed.1.trans (setFlag_touched t l o none))
    · rintro _ t ⟨touched, value, flag, others⟩
      exact ⟨(setFlag_touched w l o _).trans touched,
        value, by rw [flag]; exact if_pos rfl, others .scratch (by simp)⟩
  | false =>
    refine holds_andThen (Q := fun _ t => t.rhs = ⟨some l⟩ ∧ t.world = w.setFlag o (some false)) ?_ ?_
    · refine (holds_onWorld (Q := fun t => t = w.setFlag o (some false))
        (R := fun _ _ => False) ?_).mono
        (fun _ _ done => done) (fun _ _ failed => failed.2.elim)
      simp only [Union.emptyStorage, born, absent, holds_ok]
    · rintro _ ⟨_, _⟩ ⟨rfl, rfl⟩
      have built :=
        build_writes (l := l) converts .direct ((kept (some false) _).trans empty) (held' _) (live _)
      rw [← initializeT_eq (if_pos rfl), alone] at built
      refine (holds_onThrow (holds_onWorld built) fun e t failed => ?_).mono ?_ (fun _ _ done => done)
      · obtain ⟨same, failed⟩ := failed
        refine (holds_onWorld (storageDestructor_holds E apart ?_)).mono ?_
          (fun _ _ failed => failed.2.elim)
        · rw [failed.flag]
          exact if_pos rfl
        · rintro _ t' ⟨same', cleaned⟩
          exact ⟨same'.trans same, (setFlag_touched w l o _).trans (failed.toTouched.trans cleaned)⟩
      · rintro _ t ⟨same, written⟩
        exact ⟨same, (setFlag_touched w l o _).trans written.toTouched, written.value, written.flag,
          written.scratch⟩

/-- The category in which `construct` of a base passes `v` on. -/
def alignedCat (v : Arg) : Cat := if v.ty = .self then v.cat.bound else v.cat

def directCat (v : Arg) : Cat := if v.ty = .self then .constLvalue else v.cat

theorem lvalue_cat (U : Referee) (l : Loc) : (U.lvalue l).cat ≠ .rvalue := by
  unfold Referee.lvalue
  cases U.isConst <;> nofun

theorem alignedCat_lvalue (U : Referee) (l : Loc) : alignedCat (U.lvalue l) ≠ .rvalue := by
  obtain ⟨isConst, ty⟩ := U
  cases isConst <;> cases ty <;> simp [alignedCat, Referee.lvalue, Cat.bound]

theorem directCat_lvalue (U : Referee) (l : Loc) : directCat (U.lvalue l) ≠ .rvalue := by
  obtain ⟨isConst, ty⟩ := U
  cases isConst <;> cases ty <;> simp [directCat, Referee.lvalue]

theorem alignedCat_moved (U : Referee) (l : Loc) :
    alignedCat (U.moved l) = .rvalue ↔ U.isConst = false ∨ U.ty ≠ .self := by
  obtain ⟨isConst, ty⟩ := U
  cases isConst <;> cases ty <;> simp [alignedCat, Referee.moved, Cat.bound]

theorem directCat_moved (U : Referee) (l : Loc) :
    directCat (U.moved l) = .rvalue ↔ U.ty ≠ .self := by
  obtain ⟨isConst, ty⟩ := U
  cases isConst <;> cases ty <;> simp [directCat, Referee.moved]

include converts in
theorem alignedCtor_passes (quiet : w.value .scratch = none) (absent : w.flag o = none)
    (empty : w.value (.contained o) = none) (held : w.value l = some x) (here : (value l).loc = l) :
    Passes l o (alignedCat (value l)) (converted convert (value l).ty x) (some true) w ⟨some l⟩
      (Aligned.convCtor b o value ⟨w, ⟨some l⟩⟩) := by
  have kept : ∀ p, (w.setFlag o (some false)).value p = w.value p := fun p => by cases p <;> rfl
  refine holds_andThen (Q := fun _ t => t.rhs = ⟨some l⟩ ∧ t.world = w.setFlag o (some false)) ?_ ?_
  · refine (holds_onWorld (Q := fun t => t = w.setFlag o (some false)) (R := fun _ _ => False) ?_).mono
      (fun _ _ done => done) (fun _ _ failed => failed.2.elim)
    simp only [Aligned.defaultCtor, born, absent, holds_ok]
  · rintro _ ⟨_, _⟩ ⟨rfl, rfl⟩
    have built := aligned_construct_writes (o := o) converts ((kept _).trans quiet) here
      ((kept _).trans held)
      ((kept _).trans empty)
    refine (holds_onThrow (holds_onWorld built) fun e t failed => ?_).mono ?_ (fun _ _ done => done)
    · obtain ⟨same, failed⟩ := failed
      refine (holds_onWorld (baseDestructor_holds (l := l) (o := o) ?_)).mono ?_
        (fun _ _ failed => failed.2.elim)
      · rw [failed.flag]
        exact if_pos rfl
      · rintro _ t' ⟨same', cleaned⟩
        exact ⟨same'.trans same, (setFlag_touched w l o _).trans (failed.toTouched.trans cleaned)⟩
    · rintro _ t ⟨same, written⟩
      exact ⟨same, (setFlag_touched w l o _).trans written.toTouched, written.value, written.flag,
        written.scratch⟩

theorem emptyBase_holds (b : Behaviour α ε) (absent : w.flag o = none) (apart : l ≠ .contained o) :
    (Direct.emptyBase b o w).Holds
      (fun _ t => Touched l [] w t ∧ t.value .scratch = w.value .scratch ∧ t.flag o = some false ∧
        (b w.trace (.construct .direct (.contained o) []) w.value).threw = none)
      (fun _ t => Touched l [] w t ∧
        (b w.trace (.construct .direct (.contained o) []) w.value).threw ≠ none) := by
  -- `T`'s default constructor fills the storage. When it throws, nothing was passed on.
  simp only [Direct.emptyBase, Direct.memberCtor, bind_apply, born, andThen, absent]
  have values : Memory.value (w.setFlag o (some false)) = w.value := rfl
  have traces : trace (w.setFlag o (some false)) = w.trace := rfl
  refine holds_onThrow
    (E := fun _ t => Touched l [] w t ∧
      (b w.trace (.construct .direct (.contained o) []) w.value).threw ≠ none) ?_ ?_
  · simp only [Direct.placeStorage, bind_apply, andThen, userCall, Call.operands, List.map_nil,
      List.all_nil, if_true,
      settle]
    rw [values, traces]
    cases threw : (b w.trace (.construct .direct (.contained o) []) w.value).threw with
    | some e => exact ⟨(setFlag_touched w l o _).trans (initial_touched _ l _ _), Option.some_ne_none e⟩
    | none =>
      exact ⟨(setFlag_touched w l o _).trans
        ((initial_touched _ l _ _).trans (setCell_touched apart _ _)),
        rfl, if_pos rfl, rfl⟩
  · rintro e t ⟨touched, threw⟩
    refine (releaseStorage_holds (ε := ε) apart).mono (fun _ u cleaned => ?_)
      (fun _ _ failed => failed.elim)
    exact ⟨touched.trans cleaned, threw⟩

include converts in
theorem directCtor_passes (quiet : w.value .scratch = none) (absent : w.flag o = none)
    (empty : w.value (.contained o) = none) (held : w.value l = some x) (here : (value l).loc = l) :
    (Direct.convCtor b o value ⟨w, ⟨some l⟩⟩).Holds
      (fun _ t => t.rhs = ⟨some l⟩ ∧
        Written l o [directCat (value l)] (converted convert (value l).ty x) (some true) w t.world ∧
        (b w.trace (.construct .direct (.contained o) []) w.value).threw = none)
      (fun _ t => t.rhs = ⟨some l⟩ ∧
        ((b w.trace (.construct .direct (.contained o) []) w.value).threw = none ∧
            Touched l [directCat (value l)] w t.world ∨
          (b w.trace (.construct .direct (.contained o) []) w.value).threw ≠ none ∧
          Touched l [] w t.world)) := by
  have apart : l ≠ .contained o := by
    rintro rfl
    rw [held] at empty
    cases empty
  refine holds_andThen ((holds_onWorld (emptyBase_holds b absent apart)).mono (fun _ _ done => done)
    fun _ _ failed => ⟨failed.1, .inr ⟨failed.2.2, failed.2.1⟩⟩) ?_
  rintro _ ⟨u, rhs⟩ ⟨same, touched, scratch, _, ran⟩
  obtain rfl : rhs = ⟨some l⟩ := same
  have built := direct_construct_writes (o := o) converts (scratch.trans quiet) here
    ((touched.referee List.not_mem_nil).trans held) (fun same => (apart same).elim)
  rw [onThrow_whenBound]
  refine (holds_onThrow (holds_onWorld built) fun e t failed => ?_).mono ?_ (fun _ _ done => done)
  · obtain ⟨same, failed⟩ := failed
    refine (holds_onWorld (releaseStorage_holds apart)).mono ?_ (fun _ _ failed => failed.2.elim)
    rintro _ t' ⟨same', cleaned⟩
    exact ⟨same'.trans same, .inl ⟨ran, touched.trans (failed.toTouched.trans cleaned)⟩⟩
  · rintro _ t ⟨same, written⟩
    exact ⟨same, ⟨touched.trans written.toTouched, written.value, written.flag,
      written.scratch.trans (by rw [scratch])⟩, ran⟩

end Construct

/-! ### Assignment -/

section Assign

variable {E : Element α} {b : Behaviour α ε} {convert : α → α} (converts : Converts b convert)
variable {w : World α} {l : Loc} {x : α} {o : ObjId} {value : Loc → Arg} {init : Bool}

theorem passes_onWorld {c : Code α ε Unit} {cat : Cat} {y : α} {f : Option Bool} {rhs : OptionalRef}
    (runs : (c w).Holds (fun _ t => Written l o [cat] y f w t) (fun _ t => Failed l [cat] w t)) :
    Passes l o cat y f w rhs (onWorld c ⟨w, rhs⟩) :=
  (holds_onWorld runs).mono (fun _ _ done => done) fun _ _ failed => ⟨failed.1, failed.2.toTouched⟩

section Bound

variable (quiet : w.value .scratch = none) (here : (value l).loc = l) (held : w.value l = some x)
  (flag : w.flag o = some init) (own : l = .contained o → (value l).ty = .self)

include converts here held flag own

theorem unionAssign_passes (occupied : (w.value (.contained o)).isSome = init) :
    Passes l o (value l).cat (converted convert (value l).ty x) (some true) w ⟨some l⟩
      (Union.assignFrom E b o value ⟨w, ⟨some l⟩⟩) := by
  have live : (w.value (value l).loc).isSome = true := by rw [here, held]; rfl
  have alone : argCats l (value l) = [(value l).cat] := if_pos here
  have held' : w.value (value l).loc = some x := by rw [here, held]
  simp only [Union.assignFrom, bind_apply, andThen, onWorld, BoostOptional.isInitialized, flag]
  cases init with
  | true =>
    refine passes_onWorld ?_
    rw [assignT_eq_assignment occupied live]
    refine (assignment_touches (l := l) converts held' (fun same => own (here.symm.trans same))
      (fun _ => here)).mono ?_ ?_
    · rintro _ t ⟨touched, value, flags, scratch⟩
      rw [alone] at touched
      exact ⟨touched, value, by rw [flags, flag], scratch⟩
    · rintro _ t failed
      rwa [alone] at failed
  | false =>
    refine passes_onWorld ?_
    have empty : w.value (.contained o) = none := by simpa using occupied
    rw [initializeT_eq flag, ← alone]
    exact build_writes converts .direct empty held' (by rw [held]; rfl)

include quiet in
theorem alignedAssign_passes (occupied : (w.value (.contained o)).isSome = init) :
    Passes l o (alignedCat (value l)) (converted convert (value l).ty x) (some true) w ⟨some l⟩
      (Aligned.assignFrom b o value ⟨w, ⟨some l⟩⟩) := by
  simp only [Aligned.assignFrom, bind_apply, andThen, onWorld, BoostOptional.isInitialized, flag]
  cases init with
  | true => exact passes_onWorld (aligned_assignValue_writes converts quiet here held flag occupied own)
  | false =>
    exact passes_onWorld (aligned_construct_writes converts quiet here held (by simpa using occupied))

omit flag in
include quiet in
theorem directAssign_passes :
    Passes l o (value l).cat (converted convert (value l).ty x) (some true) w ⟨some l⟩
      (Direct.assignFrom E b o value ⟨w, ⟨some l⟩⟩) := by
  refine holds_andThen (Q := fun _ t => t.rhs = ⟨some l⟩ ∧
    Written l o [(value l).cat] (converted convert (value l).ty x) (w.flag o) w t.world) ?_ ?_
  · exact passes_onWorld (direct_assignValue_writes converts quiet here held E own)
  · rintro _ ⟨t, rhs⟩ ⟨same, written⟩
    obtain rfl : rhs = ⟨some l⟩ := same
    exact ⟨rfl, setInit_written written.toTouched written.value rfl written.scratch⟩

end Bound

theorem reset_empties (E : Element α) (flag : w.flag o = some true)
    (occupied : (w.value (.contained o)).isSome = true) :
    (Union.reset E o w : Outcome _ ε _ _).Holds (fun _ t => t.flag o = some false)
    (fun _ _ => False) := by
  unfold Union.reset Union.storageReset
  split
  · exact if_pos rfl
  · have destroyed := destroyT_live (ε := ε) (s := w) occupied
    simp only [bind_apply, andThen, BoostOptional.isInitialized, flag, if_true, destroyed]
    exact if_pos rfl

theorem destroy_empties (flag : w.flag o = some true)
    (occupied : (w.value (.contained o)).isSome = true) :
    (Aligned.destroy o w : Outcome _ ε _ _).Holds (fun _ t => t.flag o = some false)
    (fun _ _ => False) := by
  have destroyed := destroyT_live (ε := ε) (s := w) occupied
  simp only [Aligned.destroy, Aligned.destroyImpl, bind_apply, andThen, BoostOptional.isInitialized,
    flag, if_true,
    destroyed]
  exact if_pos rfl

theorem assign_unbound (storage : Storage) (U : Referee) (cat : Cat) (flag : w.flag o = some init)
    (occupied : storage ≠ .direct → (w.value (.contained o)).isSome = init) :
    (assign E b storage o U cat ⟨w, ⟨none⟩⟩).Holds
      (fun _ t => t.rhs = ⟨none⟩ ∧ t.world.flag o = some false)
      (fun _ _ => False) := by
  have emptied : ∀ c : Code α ε Unit, (c w).Holds (fun _ t => t.flag o = some false)
    (fun _ _ => False) →
      (onWorld c ⟨w, ⟨none⟩⟩).Holds (fun _ t => t.rhs = ⟨none⟩ ∧ t.world.flag o = some false)
      (fun _ _ => False) :=
    fun c runs => (holds_onWorld runs).mono (fun _ _ done => done) fun _ _ failed => failed.2
  cases storage with
  | union =>
    have same : assign E b .union o U cat = Union.assignFrom E b o U.lvalue := by cases cat <;> rfl
    simp only [same, Union.assignFrom, bind_apply, andThen, onWorld, BoostOptional.isInitialized, flag]
    cases init with
    | true => exact emptied _ (reset_empties E flag (occupied (by simp)))
    | false => exact ⟨rfl, flag⟩
  | aligned =>
    have same : assign E b .aligned o U cat = Aligned.assignFrom b o U.lvalue := by cases cat <;> rfl
    simp only [same, Aligned.assignFrom, bind_apply, andThen, onWorld,
      BoostOptional.isInitialized, flag]
    cases init with
    | true => exact emptied _ (destroy_empties flag (occupied (by simp)))
    | false => exact ⟨rfl, flag⟩
  | direct =>
    have same : assign E b .direct o U cat = Direct.assignFrom E b o U.lvalue := by cases cat <;> rfl
    rw [same]
    exact ⟨rfl, if_pos rfl⟩

include converts in
theorem assign_bound (storage : Storage) (U : Referee) (cat : Cat) (quiet : w.value .scratch = none)
    (held : w.value l = some x) (flag : w.flag o = some init)
    (occupied : storage ≠ .direct → (w.value (.contained o)).isSome = init)
    (own : l = .contained o → U.ty = .self) :
    ∃ passedOn, passedOn ≠ .rvalue ∧ Passes l o passedOn (converted convert U.ty x)
      (some true) w ⟨some l⟩
      (assign E b storage o U cat ⟨w, ⟨some l⟩⟩) := by
  cases storage with
  | union =>
    have same : assign E b .union o U cat = Union.assignFrom E b o U.lvalue := by cases cat <;> rfl
    rw [same]
    exact ⟨_, lvalue_cat U l, unionAssign_passes converts rfl held flag own (occupied (by simp))⟩
  | aligned =>
    have same : assign E b .aligned o U cat = Aligned.assignFrom b o U.lvalue := by cases cat <;> rfl
    rw [same]
    exact ⟨_, alignedCat_lvalue U l,
      alignedAssign_passes converts quiet rfl held flag own (occupied (by simp))⟩
  | direct =>
    have same : assign E b .direct o U cat = Direct.assignFrom E b o U.lvalue := by cases cat <;> rfl
    rw [same]
    exact ⟨_, lvalue_cat U l, directAssign_passes converts quiet rfl held own⟩

end Assign

/-! ### The referee -/

section Referee

variable {b : Behaviour α ε} {convert : α → α} {s t : State α} {l : Loc} {o : ObjId} {U : Referee}
    {cats : List Cat}

theorem unharmed_of_touched (bound : s.rhs.ptr_ = some l) (same : t.rhs = s.rhs)
    (touched : Touched l cats s.world t.world) (kept : .rvalue ∉ cats) : Unharmed s t := by
  refine ⟨same, fun l' here => ?_⟩
  obtain rfl := Option.some.inj (bound.symm.trans here)
  exact ⟨touched.referee kept, cats, touched.passed, kept⟩

theorem copied_of_written {x : α} (bound : s.rhs.ptr_ = some l) (held : s.world.value l = some x)
    (same : t.rhs = s.rhs)
    (written : Written l o cats (converted convert U.ty x) (some true) s.world t.world)
    (kept : .rvalue ∉ cats) :
    Copied convert U o s t := by
  refine ⟨unharmed_of_touched bound same written.toTouched kept, ?_, fun l' x' here value => ?_⟩
  · rw [written.flag, bound]
    rfl
  · obtain rfl := Option.some.inj (bound.symm.trans here)
    obtain rfl := Option.some.inj (held.symm.trans value)
    exact written.value

theorem not_unharmed (bound : s.rhs.ptr_ = some l) (touched : Touched l cats s.world t.world)
    (moved : .rvalue ∈ cats) :
    ¬ Unharmed s t := by
  rintro ⟨_, intact⟩
  obtain ⟨_, cats', passed, kept⟩ := (intact l bound)
  rw [touched.passed] at passed
  rw [List.append_cancel_right passed] at moved
  exact kept moved

theorem holds_false {outcome : Outcome (State α) ε Fault Unit} {Q Q' : State α → Prop}
    {R R' : ε → State α → Prop}
    (first : outcome.Holds (fun _ => Q) R) (second : outcome.Holds (fun _ => Q') R')
    (returned : ∀ t, Q t → ¬ Q' t) (thrown : ∀ e t, R e t → ¬ R' e t) : False := by
  cases outcome with
  | ok value t => exact returned t first second
  | thrown e t => exact thrown e t first second
  | fault f => exact first

end Referee

section Construct

variable {E : Element α} {b : Behaviour α ε} {convert : α → α} (converts : Converts b convert)
variable {w : World α} {l : Loc} {x : α} {o : ObjId}

/-- The storage is ready for the value, which in direct storage takes a default constructor. -/
def Ran (b : Behaviour α ε) (storage : Storage) (o : ObjId) (w : World α) : Prop :=
  storage = .direct → (b w.trace (.construct .direct (.contained o) []) w.value).threw = none

theorem body_unbound {start : Code α ε Unit} (value : Loc → Arg) (yes : Arg → Code α ε Unit)
    (cleanup : Prog (State α) ε Fault Unit)
    (starts : (start w).Holds (fun _ t => t.flag o = some false) (fun _ _ => True)) :
    ((do onWorld start; onThrow (whenBound value yes (pure ())) cleanup : Prog (State α) ε Fault Unit)
      ⟨w, ⟨none⟩⟩).Holds (fun _ t => t.rhs = ⟨none⟩ ∧ t.world.flag o = some false)
        (fun _ t => t.rhs = ⟨none⟩) := by
  -- With nothing to build from, a constructor ends with the empty storage it starts with.
  refine holds_andThen ((holds_onWorld starts).mono (fun _ _ done => done) fun _ _ failed =>
    failed.1) ?_
  rintro _ ⟨t, rhs⟩ ⟨same, flag⟩
  obtain rfl : rhs = ⟨none⟩ := same
  exact ⟨rfl, flag⟩

theorem construct_unbound (storage : Storage) (constexprCopy : Bool) (U : Referee) (cat : Cat)
    (absent : w.flag o = none) :
    (construct E b storage constexprCopy o U cat ⟨w, ⟨none⟩⟩).Holds
      (fun _ t => t.rhs = ⟨none⟩ ∧ t.world.flag o = some false) (fun _ t => t.rhs = ⟨none⟩) := by
  have bare : (born o false w : Outcome (World α) ε Fault Unit).Holds (fun _ t => t.flag o = some false)
      (fun _ _ => True) := by
    simp only [born, absent]
    exact if_pos rfl
  cases storage with
  | union =>
    have same : construct E b .union constexprCopy o U cat =
      Union.optionalCtor E b constexprCopy o U.lvalue := by
      cases cat <;> rfl
    rw [same]
    cases constexprCopy with
    | true =>
      exact (holds_onWorld (s := ⟨w, ⟨none⟩⟩) bare).mono (fun _ _ done => done)
        (fun _ _ failed => failed.1)
    | false => exact body_unbound _ _ _ bare
  | aligned => cases cat <;> exact body_unbound _ _ _ bare
  | direct =>
    have based := (emptyBase_holds (l := .scratch) (o := o) b absent (by simp)).mono
      (fun _ _ done => done.2.2.1)
      (fun _ _ _ => trivial)
    cases cat <;> exact body_unbound _ _ _ based

include converts in
theorem construct_bound (storage : Storage) (constexprCopy : Bool) (U : Referee) (cat : Cat)
    (quiet : w.value .scratch = none) (absent : w.flag o = none) (empty : w.value (.contained o) = none)
    (held : w.value l = some x) :
    ∃ passedOn, (construct E b storage constexprCopy o U cat ⟨w, ⟨some l⟩⟩).Holds
      (fun _ t => t.rhs = ⟨some l⟩ ∧ Written l o [passedOn] (converted convert U.ty x)
        (some true) w t.world ∧
        Ran b storage o w)
      (fun _ t => t.rhs = ⟨some l⟩ ∧ (Ran b storage o w ∧ Touched l [passedOn] w t.world ∨
        ¬ Ran b storage o w ∧ Touched l [] w t.world)) ∧
      (passedOn = .rvalue ∧ Ran b storage o w ↔ Steals b storage o U cat ⟨w, ⟨some l⟩⟩) := by
  cases storage with
  | union =>
    have same : construct E b .union constexprCopy o U cat =
      Union.optionalCtor E b constexprCopy o U.lvalue := by
      cases cat <;> rfl
    have ran : Ran b .union o w := nofun
    refine ⟨(U.lvalue l).cat, ?_, by simp [lvalue_cat, Steals]⟩
    rw [same]
    refine (unionCtor_passes converts constexprCopy quiet absent empty held rfl).mono ?_ ?_
    · exact fun _ t done => ⟨done.1, done.2, ran⟩
    · exact fun _ t failed => ⟨failed.1, .inl ⟨ran, failed.2⟩⟩
  | aligned =>
    have ran : Ran b .aligned o w := nofun
    have passes : ∀ value : Loc → Arg, (value l).loc = l → (value l).ty = U.ty →
        (Aligned.convCtor b o value ⟨w, ⟨some l⟩⟩).Holds
          (fun _ t => t.rhs = ⟨some l⟩ ∧
            Written l o [alignedCat (value l)] (converted convert U.ty x) (some true) w t.world ∧
            Ran b .aligned o w)
          (fun _ t => t.rhs = ⟨some l⟩ ∧
            (Ran b .aligned o w ∧ Touched l [alignedCat (value l)] w t.world ∨
            ¬ Ran b .aligned o w ∧ Touched l [] w t.world)) := by
      intro value here ty
      rw [← ty]
      refine (alignedCtor_passes converts quiet absent empty held here).mono ?_ ?_
      · exact fun _ t done => ⟨done.1, done.2, ran⟩
      · exact fun _ t failed => ⟨failed.1, .inl ⟨ran, failed.2⟩⟩
    cases cat with
    | rvalue =>
      refine ⟨_, passes U.moved rfl rfl, ?_⟩
      simp [alignedCat_moved, ran, Steals]
    | lvalue | constLvalue =>
      refine ⟨_, passes U.lvalue rfl rfl, ?_⟩
      simp [alignedCat_lvalue, Steals]
  | direct =>
    have passes : ∀ value : Loc → Arg, (value l).loc = l → (value l).ty = U.ty →
        (Direct.convCtor b o value ⟨w, ⟨some l⟩⟩).Holds
          (fun _ t => t.rhs = ⟨some l⟩ ∧
            Written l o [directCat (value l)] (converted convert U.ty x) (some true) w t.world ∧
            Ran b .direct o w)
          (fun _ t => t.rhs = ⟨some l⟩ ∧
            (Ran b .direct o w ∧ Touched l [directCat (value l)] w t.world ∨
            ¬ Ran b .direct o w ∧ Touched l [] w t.world)) := by
      intro value here ty
      rw [← ty]
      refine (directCtor_passes converts quiet absent empty held here).mono ?_ ?_
      · exact fun _ t done => ⟨done.1, done.2.1, fun _ => done.2.2⟩
      · rintro _ t ⟨same, failed⟩
        exact ⟨same, failed.imp (fun failed => ⟨fun _ => failed.1, failed.2⟩)
          fun failed => ⟨fun ran => failed.1 (ran rfl), failed.2⟩⟩
    cases cat with
    | rvalue =>
      refine ⟨_, passes U.moved rfl rfl, ?_⟩
      simp [directCat_moved, Ran, Steals]
    | lvalue | constLvalue =>
      refine ⟨_, passes U.lvalue rfl rfl, ?_⟩
      simp [directCat_lvalue, Steals]

end Construct

/-- Which conversions of an optional reference copy its referee: all but one kind of construction. -/
theorem convert_copies (E : Element α) {b : Behaviour α ε} {convert : α → α}
    (converts : Converts b convert)
    (storage : Storage) (constexprCopy : Bool) (o : ObjId) (U : Referee) (cat : Cat) (s : State α)
    (quiet : s.world.value .scratch = none)
    (live : ∀ l, s.rhs.ptr_ = some l → (s.world.value l).isSome = true) :
    (s.world.flag o = none → s.world.value (.contained o) = none →
      ((construct E b storage constexprCopy o U cat s).Holds (fun _ => Copied convert U o s)
        (fun _ => Unharmed s) ↔
        ¬ Steals b storage o U cat s)) ∧
    (∀ init, s.world.flag o = some init →
      (storage ≠ .direct → (s.world.value (.contained o)).isSome = init) →
      (s.rhs.ptr_ = some (.contained o) → U.ty = .self) →
      (assign E b storage o U cat s).Holds (fun _ => Copied convert U o s) (fun _ => Unharmed s)) := by
  obtain ⟨w, ⟨ptr⟩⟩ := s
  cases ptr with
  | none =>
    have copied : ∀ t : State α, t.rhs = ⟨none⟩ ∧
      t.world.flag o = some false → Copied convert U o ⟨w, ⟨none⟩⟩ t :=
      fun t done => ⟨⟨done.1, nofun⟩, done.2, nofun⟩
    refine ⟨fun absent _ => ?_, fun init flag occupied _ => ?_⟩
    · have never : ¬ Steals b storage o U cat ⟨w, ⟨none⟩⟩ := fun steals => steals.2.1 rfl
      simp only [never, not_false_iff, iff_true]
      exact (construct_unbound storage constexprCopy U cat absent).mono (fun _ => copied)
        fun _ _ same => ⟨same, nofun⟩
    · exact (assign_unbound storage U cat flag occupied).mono (fun _ => copied)
        fun _ _ failed => failed.elim
  | some l =>
    obtain ⟨x, held⟩ := Option.isSome_iff_exists.mp (live l rfl)
    refine ⟨fun absent empty => ?_, fun init flag occupied own => ?_⟩
    · obtain ⟨passedOn, runs, steals⟩ :=
        construct_bound converts storage constexprCopy U cat quiet absent empty held
      rw [← steals]
      constructor
      · rintro copies ⟨rfl, ran⟩
        refine holds_false copies runs (fun t copied done => ?_) (fun e t unharmed failed => ?_)
        · exact not_unharmed rfl done.2.1.toTouched (List.mem_singleton_self _) copied.1
        · rcases failed.2 with ⟨_, touched⟩ | ⟨notRan, _⟩
          · exact not_unharmed rfl touched (List.mem_singleton_self _) unharmed
          · exact notRan ran
      · intro safe
        have kept : Ran b storage o w → Cat.rvalue ∉ [passedOn] := fun ran member =>
          safe ⟨(List.mem_singleton.mp member).symm, ran⟩
        refine runs.mono (fun _ t done => ?_) (fun e t failed => ?_)
        · exact copied_of_written rfl held done.1 done.2.1 (kept done.2.2)
        · rcases failed.2 with ⟨ran, touched⟩ | ⟨_, touched⟩
          · exact unharmed_of_touched rfl failed.1 touched (kept ran)
          · exact unharmed_of_touched rfl failed.1 touched List.not_mem_nil
    · obtain ⟨passedOn, lvalue, runs⟩ :=
        assign_bound (E := E) converts storage U cat quiet held flag occupied fun same =>
          own (congrArg some same)
      have kept : Cat.rvalue ∉ [passedOn] := fun member => lvalue (List.mem_singleton.mp member).symm
      refine runs.mono (fun _ t done => ?_) (fun e t failed => ?_)
      · exact copied_of_written rfl held done.1 done.2 kept
      · exact unharmed_of_touched rfl failed.1 failed.2 kept

/-! ### A type whose moves leave zero behind -/

def movingInt : Behaviour Int ε := fun _ call values =>
  let held : Loc → Int := fun l => (values l).getD 0
  match call with
  | .construct _ _ args =>
    ⟨none, (args.head?.map fun v => held v.loc).getD 0,
      fun l => if ∃ v ∈ args, v.loc = l ∧ v.cat = .rvalue then 0 else held l⟩
  | .assign dst v =>
    ⟨none, 0, fun l => if l = dst then held v.loc else if l = v.loc ∧ v.cat = .rvalue then 0
        else held l⟩
  | .swap x y => ⟨none, 0, fun l => if l = x then held y else if l = y then held x else held l⟩
  | .destroy _ => ⟨none, 0, held⟩

theorem movingInt_converts : Converts (movingInt (ε := ε)) id where
  construct trace values how dst v x held _ := by simp [movingInt, held, converted]
  construct_keeps trace values how dst v x held lvalue := by simp [movingInt, held, lvalue]
  assign trace values dst v x _ held _ := by simp [movingInt, held, converted]
  assign_keeps trace values dst v x _ held lvalue := by simp [movingInt, held, lvalue]

/-- The number 7 in a variable, and a reference to it. -/
def seven : State Int := ⟨World.initial fun _ => 7, ⟨some (.var 0)⟩⟩

/-- Over `optional_base` the `T` referred to is moved from, and over `tc_optional_base` an object of
another type is. -/
theorem construct_moves_referee :
    (∃ t, construct (.nontrivial Int) (movingInt (ε := Unit)) .aligned false (.named 0)
        ⟨false, .self⟩ .rvalue seven =
        .ok () t ∧ seven.world.value (.var 0) = some 7 ∧ t.world.value (.var 0) = some 0) ∧
    ∃ t, construct (.nontrivial Int) (movingInt (ε := Unit)) .direct false (.named 0)
    ⟨false, .other⟩ .rvalue seven =
        .ok () t ∧ seven.world.value (.var 0) = some 7 ∧ t.world.value (.var 0) = some 0 :=
  ⟨⟨_, rfl, rfl, rfl⟩, ⟨_, rfl, rfl, rfl⟩⟩

theorem convert_copies_union :
    (construct (.nontrivial Int) (movingInt (ε := Unit)) .union true (.named 0)
        ⟨false, .self⟩ .rvalue seven).Holds
      (fun _ => Copied id ⟨false, .self⟩ (.named 0) seven) (fun _ => Unharmed seven) :=
  ((convert_copies (.nontrivial Int) movingInt_converts .union true (.named 0)
      ⟨false, .self⟩ .rvalue seven rfl
    fun l bound => by rw [← Option.some.inj bound]; rfl).1 rfl rfl).mpr (by simp [Steals])

end BoostOptional.Reference
