import BoostOptional.Conversion.Agreement
import BoostOptional.Conversion.Legacy

/-!
Construction and assignment of an `optional<T>` from the same source, in the legacy implementation. They
agree whatever the source is. What this asks of `T` an `optional<T>` has too, so they agree at every depth.
-/

namespace BoostOptional.Conversion.Legacy
open Overload

variable {β : Type}

/-- A type whose assignments agree with its constructors. What converts implicitly is accepted by a
constructor. -/
structure Regular (T : Ty) (ops : TypeOps β) : Prop extends Lawful T ops where
  overwrites : ∀ c t x y, ops.assign T c t x = some y → y = x
  assigns : ∀ X c t x y z, X ≠ T → ops.assign X c t x = some y → ops.construct X c x = some z → y = z
  constructs : ∀ X c, X ≠ T → ops.standard X = true ∨ ops.convertible X c = true →
    ops.constructible X c = true
  scalar : ∀ V, T = .opt V → ops.isScalar = false

theorem rank_able {ops : TypeOps β} {X : Ty} {c : Cat} (ranked : (ops.rank X c).isSome = true) :
    ops.standard X = true ∨ ops.convertible X c = true := by
  by_contra neither
  rw [not_or] at neither
  simp [TypeOps.rank, neither.1, neither.2] at ranked

theorem binds_able {T X : Ty} {ops : TypeOps β} {c : Cat} (notOwn : X ≠ T) (bound : binds T ops X c = true) :
    ops.standard X = true ∨ ops.convertible X c = true := by
  simp only [binds, notOwn, decide_false, Bool.false_or] at bound
  exact rank_able bound

/-- `rhs` with its value as a `T`. -/
def converted (T : Ty) (ops : TypeOps β) (U : Ty) (cat : Cat) : Val β → Option (Val β)
  | .empty => some .empty
  | .full u => (asValue T ops U cat u).map .full
  | .base _ => none

section Optional

variable {T : Ty} {ops : TypeOps β} (regular : Regular T ops)

/-! ### What the bodies store -/

include regular in
theorem place_eq {cat : Cat} {v w : Val β} (placed : place T ops cat v = some w) : w = v := by
  unfold place at placed
  split at placed
  · exact (Option.some.inj placed).symm
  · exact regular.copies _ _ _ placed

include regular in
theorem overwrite_eq {cat : Cat} {t v w : Val β} (stored : overwrite T ops cat t v = some w) : w = v := by
  unfold overwrite at stored
  split at stored
  · exact (Option.some.inj stored).symm
  · exact regular.overwrites _ _ _ _ stored

include regular in
theorem baseConstruct_eq {X : Ty} {c : Cat} {x w : Val β} (made : baseConstruct T ops X c x = some w) :
    asValue T ops X c x = some w := by
  obtain ⟨v, bound, placed⟩ := Option.bind_eq_some_iff.mp made
  rw [bound, place_eq regular placed]

include regular in
theorem assignValue_eq {X : Ty} {c : Cat} {t x w : Val β} (made : assignValue T ops X c t x = some w) :
    asValue T ops X c x = some w := by
  obtain ⟨v, bound, stored⟩ := Option.bind_eq_some_iff.mp made
  rw [bound, overwrite_eq regular stored]

include regular in
theorem constructFrom_converted {U : Ty} {cat : Cat} {rhs r : Val β}
    (made : constructFrom T ops U cat rhs = some r) : converted T ops U cat rhs = some r := by
  unfold constructFrom at made
  split at made
  · cases rhs with
    | base b => cases made
    | empty => exact made
    | full u =>
      obtain ⟨w, built, rfl⟩ := map_full_eq made
      simp only [converted, baseConstruct_eq regular built, Option.map_some]
  · cases made

theorem assignFrom_binds {U : Ty} {cat : Cat} {o rhs r : Val β}
    (made : assignFrom T ops U cat o rhs = some r) : binds T ops U cat = true := by
  unfold assignFrom at made
  split at made
  · rename_i compiles
    simp only [constructs, Bool.and_eq_true] at compiles
    exact compiles.1.1
  · cases made

include regular in
theorem assignFrom_converted {U : Ty} {cat : Cat} {o rhs r : Val β}
    (made : assignFrom T ops U cat o rhs = some r) : converted T ops U cat rhs = some r := by
  unfold assignFrom at made
  split at made
  · cases o <;> cases rhs <;> simp only [reduceCtorEq] at made
    · exact made
    · obtain ⟨w, built, rfl⟩ := map_full_eq made
      simp only [converted, baseConstruct_eq regular built, Option.map_some]
    · exact made
    · obtain ⟨w, built, rfl⟩ := map_full_eq made
      simp only [converted, assignValue_eq regular built, Option.map_some]
  · cases made

theorem converted_own {cat : Cat} {rhs r : Val β} (made : converted T ops T cat rhs = some r) : r = rhs := by
  cases rhs with
  | base b => cases made
  | empty => exact (Option.some.inj made).symm
  | full u => simpa [converted, asValue, eq_comm] using made

include regular in
theorem assignT_eq {cat : Cat} {o x r : Val β} (made : assignT T ops cat o x = some r) : r = .full x := by
  cases o with
  | base b => cases made
  | empty =>
    obtain ⟨w, placed, rfl⟩ := map_full_eq made
    rw [place_eq regular placed]
  | full t =>
    obtain ⟨w, stored, rfl⟩ := map_full_eq made
    rw [overwrite_eq regular stored]

/-! ### Construction -/

theorem construct_eq {X : Ty} {c : Cat} {f : Ctor} (selected : resolve (ctors T ops X c) = some f) (x : Val β) :
    construct T ops X c x = runCtor T ops X c x f := by
  simp only [construct, selected, Option.bind_some]

include regular in
theorem construct_own {c : Cat} {x p : Val β} (made : construct T ops T c x = some p) : p = .full x := by
  rw [construct_eq (resolve_ctors_own T ops c)] at made
  split at made <;> simp only [runCtor, asValue, if_true, Option.bind_some] at made <;>
    exact copied_full regular.toLawful made

include regular in
theorem construct_same {c : Cat} {x p : Val β} (made : construct T ops (.opt T) c x = some p) : p = x := by
  rw [construct_eq (ctors_eq ops c (.inr ⟨T, rfl⟩) ▸ resolve_ctors_same T ops c)] at made
  split at made <;> simp only [runCtor, asOptional, if_true, Option.bind_some] at made <;>
    exact constructFrom_copies regular.toLawful made

include regular in
theorem convert_full {X : Ty} {c : Cat} {x p : Val β} (made : convert T ops X c x = some p) :
    ∃ v, asValue T ops X c x = some v ∧ p = .full v := by
  obtain ⟨v, bound, copied⟩ := Option.bind_eq_some_iff.mp made
  exact ⟨v, bound, copied_full regular.toLawful copied⟩

/-- From a type that is no optional: either constructor gives the value that the conversion gives. -/
theorem construct_flat {k : Nat} {c : Cat} {x v p : Val β} (regular : Regular T ops) (notOwn : Ty.prim k ≠ T)
    (able : ops.standard (.prim k) = true ∨ ops.convertible (.prim k) c = true)
    (through : ops.convert (.prim k) c x = some v) (made : construct T ops (.prim k) c x = some p) :
    p = .full v := by
  have selected := ctors_eq ops c (.inl notOwn) ▸ resolve_ctors_flat ops c notOwn
  rw [if_pos (regular.constructs _ _ notOwn able)] at selected
  rw [construct_eq selected] at made
  obtain ⟨w, built, rfl⟩ := map_full_eq made
  rw [regular.converts _ _ _ _ _ notOwn able through built]

/-! ### Assignment -/

theorem assign_eq {X : Ty} {c : Cat} {f : Assignment} (selected : resolve (assignments T ops X c) = some f)
    (o x : Val β) : assign T ops X c o x = runAssignment T ops X c o x f := by
  simp only [assign, selected, Option.bind_some]

theorem baseAssign_eq {X : Ty} {c : Cat} {f : BaseAssign} (selected : resolve (baseAssigns T ops X c) = some f)
    (o x : Val β) : baseAssign T ops X c o x = runBaseAssign T ops X c o x f := by
  simp only [baseAssign, selected, Option.bind_some]

include regular in
theorem baseAssign_own {c : Cat} {o x r : Val β} (made : baseAssign T ops T c o x = some r) : r = .full x := by
  rw [baseAssign_eq (resolve_baseAssigns_own T ops c regular.scalar)] at made
  split at made <;> simp only [runBaseAssign, asValue, if_true, Option.bind_some] at made <;>
    exact assignT_eq regular made

include regular in
/-- A `T` is assigned as a value by every one of the operators that may be selected. -/
theorem assign_own {c : Cat} {o x r : Val β} (made : assign T ops T c o x = some r) : r = .full x := by
  rw [assign_eq (resolve_assignments_own T ops c)] at made
  split at made <;> exact baseAssign_own regular made

include regular in
theorem assign_same {c : Cat} {o x r : Val β} (made : assign T ops (.opt T) c o x = some r) : r = x := by
  rw [assign_eq (resolve_assignments_same T ops c)] at made
  split at made <;> simp only [runAssignment, asOptional, if_true, Option.bind_some] at made <;>
    exact converted_own (assignFrom_converted regular made)

include regular in
/-- From another optional, both take its value for a `T`. -/
theorem assigns_other {U : Ty} {c : Cat} {o x r p : Val β} (notOwn : Ty.opt U ≠ T) (notSame : U ≠ T)
    (assigned : assign T ops (.opt U) c o x = some r) (built : construct T ops (.opt U) c x = some p) :
    r = p := by
  have flat := regular.flat U
  have selected := ctors_eq ops c (.inr ⟨U, rfl⟩) ▸ resolve_ctors_other ops c notOwn notSame flat
  have taken : ∀ cat f, assignFrom T ops U cat o x = some r → resolve (ctors T ops (.opt U) c) = some f →
      runCtor T ops (.opt U) c x f = constructFrom T ops U cat x → r = p := by
    intro cat f made chosen body
    rw [construct_eq chosen, body] at built
    have same := (assignFrom_converted regular made).symm.trans (constructFrom_converted regular built)
    exact Option.some.inj same
  have accepted : ∀ cat, assignFrom T ops U cat o x = some r → ops.constructible U cat = true := by
    intro cat made
    exact regular.constructs U cat notSame (binds_able notSame (assignFrom_binds made))
  rw [assign_eq (resolve_assignments_other ops c notOwn notSame flat)] at assigned
  by_cases rvalue : c = .rvalue
  · subst rvalue
    rw [if_pos rfl, runAssignment, baseAssign_eq (resolve_baseAssigns_other ops _ notOwn notSame flat)] at assigned
    have constructible := accepted _ assigned
    rw [if_pos ⟨rfl, constructible⟩] at selected
    exact taken _ _ assigned selected rfl
  · rw [if_neg rvalue, runAssignment,
      baseAssign_eq (resolve_baseAssigns_other ops _ notOwn notSame flat)] at assigned
    have constructible := accepted _ assigned
    rw [if_neg (fun both => rvalue both.1), if_pos constructible] at selected
    exact taken _ _ assigned selected rfl

include regular in
theorem assigns_flat {k : Nat} {c : Cat} {o x r p : Val β} (notOwn : Ty.prim k ≠ T)
    (assigned : assign T ops (.prim k) c o x = some r) (built : construct T ops (.prim k) c x = some p) :
    r = p := by
  have selected := resolve_assignments_flat ops c notOwn
  split at selected
  · rename_i candidate
    simp only [isValAssignCandidate, Bool.and_eq_true] at candidate
    have able := rank_able candidate.1.2
    have constructor := ctors_eq ops c (.inl notOwn) ▸ resolve_ctors_flat ops c notOwn
    rw [if_pos (regular.constructs _ _ notOwn able)] at constructor
    rw [construct_eq constructor] at built
    obtain ⟨z, direct, rfl⟩ := map_full_eq built
    rw [assign_eq selected, runAssignment] at assigned
    unfold assignExpr at assigned
    split at assigned
    · cases o with
      | base b => cases assigned
      | empty => simpa [direct, eq_comm] using assigned
      | full t =>
        obtain ⟨w, stored, rfl⟩ := map_full_eq assigned
        split at stored
        · rw [direct] at stored
          rw [Option.some.inj stored]
        · have through := assignValue_eq regular stored
          rw [asValue, if_neg notOwn] at through
          rw [regular.converts _ _ _ _ _ notOwn able through direct]
    · cases assigned
  · split at selected
    · rename_i standard
      rw [assign_eq selected] at assigned
      obtain ⟨q, through, moved⟩ := Option.bind_eq_some_iff.mp assigned
      have notOptional : Ty.prim k ≠ .opt T := fun same => by cases same
      rw [asOptional, if_neg notOptional] at through
      obtain ⟨v, bound, rfl⟩ := convert_full regular through
      rw [asValue, if_neg notOwn] at bound
      rw [converted_own (assignFrom_converted regular moved),
        construct_flat regular notOwn (.inl standard) bound built]
    · simp [assign, selected] at assigned

include regular in
theorem optional_regular : Regular (.opt T) (optional T ops) where
  copies _ _ _ made := construct_same regular made
  flat _ := rfl
  scalar _ _ := rfl
  overwrites _ _ _ _ made := assign_same regular made
  converts X c x y z notSame able through made := by
    obtain ⟨v, bound, rfl⟩ := convert_full regular through
    by_cases own : X = T
    · subst own
      rw [construct_own regular made]
      simpa [asValue, eq_comm] using bound
    · obtain ⟨k, rfl, standard⟩ :=
        convertible_prim c regular.toLawful notSame own (able.resolve_left Bool.false_ne_true)
      rw [asValue, if_neg own] at bound
      exact (construct_flat regular own (.inl standard) bound made).symm
  assigns X c o x r p notSame assigned built := by
    by_cases own : X = T
    · subst own
      rw [assign_own regular assigned, construct_own regular built]
    · cases X with
      | prim k => exact assigns_flat regular own assigned built
      | opt U => exact assigns_other regular own (fun same => notSame (same ▸ rfl)) assigned built
  constructs X c notSame able := by
    by_cases own : X = T
    · subst own
      simp [optional, resolve_ctors_own]
    · obtain ⟨k, rfl, standard⟩ :=
        convertible_prim c regular.toLawful notSame own (able.resolve_left Bool.false_ne_true)
      change (resolve (ctors T ops (.prim k) c)).isSome = true
      rw [ctors_eq ops c (.inl own), resolve_ctors_flat ops c own]
      simp only [standard, true_or, if_true]
      split <;> rfl

end Optional

section Depth

variable {prims : Nat → TypeOps β} (regular : ∀ k, Regular (.prim k) (prims k))

include regular

theorem typeOps_regular (T : Ty) : Regular T (typeOps prims T) := by
  induction T with
  | prim k => exact regular k
  | opt T ih => exact optional_regular ih

theorem assign_constructs {T X : Ty} {c : Cat} {o x p r : Val β}
    (built : construct T (typeOps prims T) X c x = some p) (assigned : assign T (typeOps prims T) X c o x = some r) :
    r = p := by
  have inner := typeOps_regular regular T
  by_cases same : X = .opt T
  · subst same
    rw [assign_same inner assigned, construct_same inner built]
  · exact (optional_regular inner).assigns X c o x r p same assigned built

/-- Whatever the source, assignment leaves what construction gives, and a `T` is assigned as a value. -/
theorem typeOps_assigns (T : Ty) (o : Val β) :
    (∀ X c x p r, construct T (typeOps prims T) X c x = some p →
      assign T (typeOps prims T) X c o x = some r → r = p) ∧
    (∀ c x r, assign T (typeOps prims T) T c o x = some r → r = .full x) ∧
    (∀ x r, reset T (typeOps prims T) o x = some r → r = .full x) := by
  have inner := typeOps_regular regular T
  exact ⟨fun X c x p r => assign_constructs regular, fun c x r => assign_own inner,
    fun x r => baseAssign_own inner⟩

end Depth

theorem samples_regular (k : Nat) : Regular (.prim k) (samples k) where
  toLawful := samples_lawful k
  scalar V same := by cases same
  overwrites := (samples_consistent k).overwrites
  assigns X c t x y z _ made built := by
    cases k with
    | succ k => exact Option.some.inj (made.symm.trans built)
    | zero =>
      cases X with
      | prim k => exact Option.some.inj (made.symm.trans built)
      | opt U => cases made
  constructs X c _ able := by
    cases k with
    | succ k => rfl
    | zero =>
      cases X with
      | prim k => rfl
      | opt U => exact (able.elim Bool.false_ne_true Bool.false_ne_true).elim

/-- An empty `optional<int>` that is moved into an `optional<optional<int>>` becomes its value. -/
theorem typeOps_assigns_empty :
    assign (.opt (.prim 0)) (typeOps samples (.opt (.prim 0))) (.opt (.prim 0)) .rvalue .empty .empty =
      construct (.opt (.prim 0)) (typeOps samples (.opt (.prim 0))) (.opt (.prim 0)) .rvalue .empty ∧
    construct (.opt (.prim 0)) (typeOps samples (.opt (.prim 0))) (.opt (.prim 0)) .rvalue .empty =
      some (.full .empty) := by
  have built : construct (.opt (.prim 0)) (typeOps samples (.opt (.prim 0))) (.opt (.prim 0)) .rvalue .empty =
      some (.full .empty) := by decide
  have assigned : assign (.opt (.prim 0)) (typeOps samples (.opt (.prim 0))) (.opt (.prim 0)) .rvalue .empty
      .empty = some (.full .empty) := by decide
  have same := (typeOps_assigns samples_regular (.opt (.prim 0)) .empty).1 _ _ _ _ _ built assigned
  exact ⟨assigned.trans ((congrArg some same).trans built.symm), built⟩

end BoostOptional.Conversion.Legacy
