import BoostOptional.Conversion.Legacy
import BoostOptional.Direct

/-!
What `v = move_(x)` leaves of a `T` that can be moved, by the assignment that each implementation selects.
-/

namespace BoostOptional.Stream
open Conversion

variable {β : Type}

/-- `T` can be moved: what is constructed or assigned from an rvalue has its value. -/
structure Movable (k : Nat) (ops : TypeOps β) : Prop where
  constructible : ops.constructible (.prim k) .rvalue = true
  assignable : ops.assignable (.prim k) .rvalue = true
  construct : ∀ x, ops.construct (.prim k) .rvalue (.base x) = some (.base x)
  assign : ∀ t x, ops.assign (.prim k) .rvalue (.base t) (.base x) = some (.base x)

/-- `v = move_(x)` for a `T` `x`. In the legacy implementation a scalar has `tc_optional_base`. -/
def assignMoved (storage : Storage) (T : Ty) (ops : TypeOps β) (v x : Val β) : Option (Val β) :=
  match storage with
  | .union => Conversion.assign T ops T .rvalue v x
  | .aligned => Legacy.assign T { ops with isScalar := false } T .rvalue v x
  | .direct => Legacy.assign T { ops with isScalar := true } T .rvalue v x

end BoostOptional.Stream

namespace BoostOptional.Conversion.Legacy
open Overload BoostOptional.Stream

variable {β : Type}

theorem place_of_construct {T : Ty} {ops : TypeOps β} {cat : Cat} {v : Val β}
    (made : ops.construct T cat v = some v) : place T ops cat v = some v := by
  unfold place
  split
  · rfl
  · exact made

theorem overwrite_of_assign {T : Ty} {ops : TypeOps β} {cat : Cat} {t v : Val β}
    (made : ops.assign T cat t v = some v) : overwrite T ops cat t v = some v := by
  unfold overwrite
  split
  · rfl
  · exact made

/-- `o = move_(x)` for an `x` of type `T`: the base takes it for a `T`. -/
theorem assign_own_of_moves {T : Ty} {ops : TypeOps β} {o x : Val β}
    (scalar : ∀ V, T = .opt V → ops.isScalar = false) (oldTyped : o.HasType (.opt T))
    (constructed : ops.construct T .rvalue x = some x)
    (assigned : ∀ t, o = .full t → ops.assign T .rvalue t x = some x) :
    assign T ops T .rvalue o x = some (.full x) := by
  have stored : assignT T ops .rvalue o x = some (.full x) := by
    cases o with
    | base b => cases oldTyped
    | empty => simp [assignT, place_of_construct constructed]
    | full t => simp [assignT, overwrite_of_assign (assigned t rfl)]
  have selected : baseAssign T ops T .rvalue o x = some (.full x) := by
    unfold baseAssign
    rw [resolve_baseAssigns_own T _ _ scalar, Option.bind_some]
    split
    · simp only [runBaseAssign, asValue, if_true, Option.bind_some, stored]
    · -- a scalar is taken by `T const&` and copied
      rename_i notMoved
      have isScalar : ops.isScalar = true := by simpa using notMoved
      simp only [runBaseAssign, asValue, if_true, Option.bind_some, assignT, place, overwrite, isScalar]
      cases o with
      | base b => cases oldTyped
      | empty | full _ => rfl
  unfold assign
  rw [resolve_assignments_own, Option.bind_some]
  cases T <;> exact selected

section Moves

variable {prims : Nat → TypeOps β} (movable : ∀ k, Movable k (prims k))

include movable

theorem moves_compile (T : Ty) :
    (typeOps prims T).constructible T .rvalue = true ∧ (typeOps prims T).assignable T .rvalue = true := by
  cases T with
  | prim k => exact ⟨(movable k).constructible, (movable k).assignable⟩
  | opt V =>
    constructor
    · change (resolve (ctors V (typeOps prims V) (.opt V) .rvalue)).isSome = true
      rw [ctors_eq _ _ (.inr ⟨V, rfl⟩), resolve_ctors_same, Option.isSome_some]
    · change (resolve (assignments V (typeOps prims V) (.opt V) .rvalue)).isSome = true
      rw [resolve_assignments_same, Option.isSome_some]

theorem construct_moved {T : Ty} {x : Val β} (typed : x.HasType T) :
    (typeOps prims T).construct T .rvalue x = some x := by
  induction T generalizing x with
  | prim k =>
    obtain ⟨b, rfl⟩ := typed.base
    exact (movable k).construct b
  | opt V ih =>
    change (resolve (ctors V (typeOps prims V) (.opt V) .rvalue)).bind _ = _
    rw [ctors_eq _ _ (.inr ⟨V, rfl⟩), resolve_ctors_same, if_pos rfl, Option.bind_some]
    cases x with
    | base b => cases typed
    | empty => simp [runCtor, asOptional, Conversion.constructFrom]
    | full u => simp [runCtor, asOptional, Conversion.constructFrom, ih (x := u) typed]

theorem assign_moved {T : Ty} {t x : Val β} (oldTyped : t.HasType T) (typed : x.HasType T) :
    (typeOps prims T).assign T .rvalue t x = some x := by
  induction T generalizing t x with
  | prim k =>
    obtain ⟨b, rfl⟩ := typed.base
    obtain ⟨a, rfl⟩ := oldTyped.base
    exact (movable k).assign a b
  | opt V ih =>
    change (resolve (assignments V (typeOps prims V) (.opt V) .rvalue)).bind _ = _
    rw [resolve_assignments_same, if_pos rfl, Option.bind_some]
    have compiles : (constructs V (typeOps prims V) V .rvalue && assigns V (typeOps prims V) V .rvalue) = true := by
      simp [constructs, assigns, binds, boundCat, Cat.bound, moves_compile movable V]
    simp only [runAssignment, asOptional, if_true, Option.bind_some, assignFrom, compiles]
    cases x with
    | base b => cases typed
    | empty =>
      cases t with
      | base a => cases oldTyped
      | empty | full _ => rfl
    | full u =>
      have inner : u.HasType V := typed
      cases t with
      | base a => cases oldTyped
      | empty =>
        have placed := place_of_construct (construct_moved movable inner)
        simp [baseConstruct, asValue, boundCat, Cat.bound, placed]
      | full s =>
        have stored := overwrite_of_assign (ih (show s.HasType V from oldTyped) inner)
        simp [assignValue, asValue, boundCat, Cat.bound, stored]

theorem assign_own_moved {T : Ty} {o x : Val β} (oldTyped : o.HasType (.opt T)) (typed : x.HasType T) :
    assign T (typeOps prims T) T .rvalue o x = some (.full x) := by
  refine assign_own_of_moves ?_ oldTyped (construct_moved movable typed) ?_
  · rintro V rfl
    rfl
  · rintro t rfl
    exact assign_moved movable (show t.HasType T from oldTyped) typed

end Moves

end BoostOptional.Conversion.Legacy

namespace BoostOptional.Stream
open Conversion

variable {β : Type}

section Assign

variable {k : Nat} {ops : TypeOps β} (movable : Movable k ops) {old x : Val β}

include movable

theorem assign_flat (oldTyped : old.HasType (.opt (.prim k))) (typed : x.HasType (.prim k)) :
    Conversion.assign (.prim k) ops (.prim k) .rvalue old x = some (.full x) := by
  obtain ⟨b, rfl⟩ := typed.base
  have inner : ∀ t, old = .full t → ∃ a, t = .base a := by
    rintro t rfl
    exact Val.HasType.base (k := k) oldTyped
  unfold Conversion.assign
  rw [resolve_assignments_prim, Option.bind_some]
  split
  · cases old with
    | base a => cases oldTyped
    | empty => simp [runAssignment, Conversion.assignForward, movable.construct]
    | full t =>
      obtain ⟨a, rfl⟩ := inner t rfl
      simp [runAssignment, Conversion.assignForward, movable.assign]
  · simp only [runAssignment, asOptional, Ty.ne_opt, if_false, convert, asValue, if_true,
      Option.bind_some, Cat.bound,
      movable.construct, Option.map_some, assignFrom, movable.constructible,
      movable.assignable, and_self]
    cases old with
    | base a => cases oldTyped
    | empty => simp [movable.construct]
    | full t =>
      obtain ⟨a, rfl⟩ := inner t rfl
      simp [movable.assign]

theorem legacyMoved_flat (scalar : Bool) (oldTyped : old.HasType (.opt (.prim k))) (typed : x.HasType (.prim k)) :
    Legacy.assign (.prim k) { ops with isScalar := scalar } (.prim k) .rvalue old x = some (.full x) := by
  obtain ⟨b, rfl⟩ := typed.base
  refine Legacy.assign_own_of_moves (fun V same => by cases same) oldTyped (movable.construct b) ?_
  rintro t rfl
  obtain ⟨a, rfl⟩ := Val.HasType.base (k := k) oldTyped
  exact movable.assign a b

theorem assignMoved_flat (storage : Storage) (oldTyped : old.HasType (.opt (.prim k)))
    (typed : x.HasType (.prim k)) : assignMoved storage (.prim k) ops old x = some (.full x) := by
  cases storage with
  | union => exact assign_flat movable oldTyped typed
  | aligned => exact legacyMoved_flat movable false oldTyped typed
  | direct => exact legacyMoved_flat movable true oldTyped typed

end Assign

end BoostOptional.Stream
