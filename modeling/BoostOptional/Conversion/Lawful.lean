import BoostOptional.Conversion.Selection

/-!
What is asked of the types that are no optionals, and what optionals over them inherit: a copy is equal
to its source, and an implicit conversion gives what the constructor gives.
-/

namespace BoostOptional.Conversion
open Overload

variable {β : Type}

/-- What the operations of a type have in common with copying: a copy is equal to its source, and
an implicit conversion gives what the constructor gives. -/
structure Lawful (T : Ty) (ops : TypeOps β) : Prop where
  copies : ∀ c x y, ops.construct T c x = some y → y = x
  converts : ∀ X c x y z, X ≠ T → (ops.standard X = true ∨ ops.convertible X c = true) →
    ops.convert X c x = some y → ops.construct X c x = some z → y = z
  flat : ∀ U, ops.standard (.opt U) = false

/-- Past `T` and `optional<T>`, what converts to an `optional<T>` has a standard conversion to `T`. -/
theorem convertible_prim {T X : Ty} {ops : TypeOps β} (c : Cat) (lawful : Lawful T ops) (notSame : X ≠ .opt T)
    (notOwn : X ≠ T) (able : convertible T ops X c = true) :
    ∃ k, X = .prim k ∧ ops.standard (.prim k) = true := by
  have standard : ops.standard X = true := by simpa [convertible, notSame, notOwn] using able
  cases X with
  | prim k => exact ⟨k, rfl, standard⟩
  | opt U => simp [lawful.flat U] at standard

section Optional

variable {T : Ty} {ops : TypeOps β} (lawful : Lawful T ops)

/-! ### What the bodies do with the value they are given -/

theorem map_full_eq {o : Option (Val β)} {y : Val β} (made : o.map Val.full = some y) :
    ∃ v, o = some v ∧ y = .full v := by
  obtain ⟨v, held, rfl⟩ := Option.map_eq_some_iff.mp made
  exact ⟨v, held, rfl⟩

theorem construct_eq {X : Ty} {c : Cat} {f : Ctor} (selected : resolve (ctors T ops X c) = some f)
    (x : Val β) :
    construct T ops X c x = runCtor T ops X c x f := by
  simp only [construct, selected, Option.bind_some]

theorem assign_eq {X : Ty} {c : Cat} {f : Assignment}
    (selected : resolve (assignments T ops X c) = some f)
    (o x : Val β) : assign T ops X c o x = runAssignment T ops X c o x f := by
  simp only [assign, selected, Option.bind_some]

include lawful in
theorem copied_full {cat : Cat} {x y : Val β} (made : (ops.construct T cat x).map Val.full = some y) :
    y = .full x := by
  obtain ⟨v, copied, rfl⟩ := map_full_eq made
  rw [lawful.copies _ _ _ copied]

include lawful in
theorem constructFrom_copies {cat : Cat} {x y : Val β} (made : constructFrom ops T cat x = some y) :
    y = x := by
  cases x with
  | base v => cases made
  | empty => exact (Option.some.inj made).symm
  | full u => exact copied_full lawful made

/-- Whichever constructor is selected for a `T`, it copies or moves it. -/
theorem construct_own_copies {c : Cat} {x y : Val β} (made : construct T ops T c x = some y) :
    ∃ cat u, ops.construct T cat x = some u ∧ y = .full u := by
  have chosen : ∀ f, resolve (ctors T ops T c) = some f →
      (f = .valueCopy ∨ f = .valueMove ∨ f = .forward) → ∃ cat u, ops.construct T cat x = some u ∧ y = .full u := by
    intro f selected which
    rw [construct_eq selected] at made
    rcases which with rfl | rfl | rfl <;> simp only [runCtor, asValue, if_true, Option.bind_some] at made <;>
      exact ⟨_, map_full_eq made⟩
  cases T with
  | prim k =>
    refine chosen _ (resolve_ctors_prim k ops c) ?_
    split
    · exact .inr (.inl rfl)
    · split
      · exact .inr (.inr rfl)
      · exact .inl rfl
  | opt V =>
    refine chosen _ (resolve_ctors_own V ops c) ?_
    split
    · exact .inr (.inl rfl)
    · exact .inl rfl

include lawful in
theorem construct_own {c : Cat} {x y : Val β} (made : construct T ops T c x = some y) : y = .full x := by
  obtain ⟨cat, u, copied, rfl⟩ := construct_own_copies made
  rw [lawful.copies _ _ _ copied]

include lawful in
theorem construct_same {c : Cat} {x y : Val β} (made : construct T ops (.opt T) c x = some y) :
    y = x := by
  rw [construct_eq (resolve_ctors_same T ops c)] at made
  split at made <;> simp only [runCtor, asOptional, if_true, Option.bind_some] at made <;>
    exact constructFrom_copies lawful made

include lawful in
theorem convert_own {c : Cat} {x y : Val β} (made : convert T ops T c x = some y) : y = .full x := by
  simp only [convert, asValue, if_true, Option.bind_some] at made
  exact copied_full lawful made

include lawful in
theorem converted_full {X : Ty} {c cat : Cat} {x y : Val β} (other : X ≠ T)
    (made : ((asValue T ops X c x).bind fun v => (ops.construct T cat v).map Val.full) = some y) :
    ∃ v, ops.convert X c x = some v ∧ y = .full v := by
  rw [asValue, if_neg other] at made
  obtain ⟨v, converted, moved⟩ := Option.bind_eq_some_iff.mp made
  exact ⟨v, converted, copied_full lawful moved⟩

include lawful in
theorem optional_lawful : Lawful (.opt T) (optional T ops) where
  copies _ _ _ made := construct_same lawful made
  flat _ := rfl
  converts X c x y z notSame able converted made := by
    by_cases own : X = T
    · subst own
      rw [convert_own lawful converted, construct_own lawful made]
    · have standard : ops.standard X = true := by
        simpa [optional, convertible, notSame, own] using able
      cases X with
      | opt U =>
        rw [lawful.flat U] at standard
        cases standard
      | prim k =>
        obtain ⟨v, through, rfl⟩ := converted_full lawful own converted
        have selected := resolve_ctors_flat ops c own
        simp only [standard, true_or, if_true] at selected
        split at selected
        · have made : construct T ops (.prim k) c x = some z := made
          rw [construct_eq selected] at made
          obtain ⟨w, built, rfl⟩ := map_full_eq made
          rw [lawful.converts _ _ _ _ _ own (.inl standard) through built]
        · have made : construct T ops (.prim k) c x = some z := made
          rw [construct_eq selected] at made
          obtain ⟨w, through', rfl⟩ := converted_full lawful own made
          rw [through] at through'
          rw [Option.some.inj through']

end Optional

theorem typeOps_lawful {prims : Nat → TypeOps β} (lawful : ∀ k, Lawful (.prim k) (prims k)) (T : Ty) :
    Lawful T (typeOps prims T) := by
  induction T with
  | prim k => exact lawful k
  | opt T ih => exact optional_lawful ih

/-- A type that assigns what it constructs: a copy, and from another argument what its constructor
makes of that argument. -/
structure Consistent (T : Ty) (ops : TypeOps β) : Prop extends Lawful T ops where
  overwrites : ∀ c t x y, ops.assign T c t x = some y → y = x
  assigns : ∀ X c t x y, X ≠ T → ops.constructible X c = true → ops.assign X c t x = some y →
    ops.construct X c x = some y

theorem assignFrom_overwrites {T : Ty} {ops : TypeOps β} (lawful : Lawful T ops)
    (overwrites : ∀ c t x y, ops.assign T c t x = some y → y = x) {cat : Cat} {o x y : Val β}
    (made : assignFrom ops T cat o x = some y) : y = x := by
  unfold assignFrom at made
  split at made
  · cases o <;> cases x <;> simp only [reduceCtorEq] at made
    · exact (Option.some.inj made).symm
    · exact copied_full lawful made
    · exact (Option.some.inj made).symm
    · obtain ⟨u, stored, rfl⟩ := map_full_eq made
      rw [overwrites _ _ _ _ stored]
  · cases made

theorem typeOps_overwrites {prims : Nat → TypeOps β} (consistent : ∀ k, Consistent (.prim k) (prims k)) (T : Ty) :
    ∀ c t x y, (typeOps prims T).assign T c t x = some y → y = x := by
  have lawful := typeOps_lawful fun k => (consistent k).toLawful
  induction T with
  | prim k => exact (consistent k).overwrites
  | opt V ih =>
    intro c t x y made
    have made : assign V (typeOps prims V) (.opt V) c t x = some y := made
    rw [assign_eq (resolve_assignments_same V _ c)] at made
    split at made <;> simp only [runAssignment, asOptional, if_true, Option.bind_some] at made <;>
      exact assignFrom_overwrites (lawful V) ih made

end BoostOptional.Conversion
