import Mathlib.Order.RelClasses

/-!
Strict weak orders, and the strict weak order on `Option α` that puts `none` below every value.
-/

namespace WeakOrder

variable {α : Type} {r : α → α → Prop} {a b c : α}

def Incomparable (r : α → α → Prop) (a b : α) : Prop := ¬ r a b ∧ ¬ r b a

theorem incomparable_symm (apart : Incomparable r a b) : Incomparable r b a := ⟨apart.2, apart.1⟩

theorem lt_or_incomparable (notAbove : ¬ r b a) : r a b ∨ Incomparable r a b := by
  by_cases less : r a b
  · exact .inl less
  · exact .inr ⟨less, notAbove⟩

section Order

variable [IsStrictWeakOrder α r]

theorem incomparable_equivalence : Equivalence (Incomparable r) where
  refl a := ⟨irrefl a, irrefl a⟩
  symm := incomparable_symm
  trans first second := IsStrictWeakOrder.incomp_trans _ _ _ first second

theorem lt_of_lt_of_incomparable (less : r a b) (apart : Incomparable r b c) : r a c := by
  by_contra no
  have above : ¬ r c a := fun back => apart.2 (IsTrans.trans _ _ _ back less)
  have together := incomparable_equivalence.trans apart (incomparable_symm ⟨no, above⟩)
  exact together.2 less

theorem lt_of_incomparable_of_lt (apart : Incomparable r a b) (less : r b c) : r a c := by
  by_contra no
  have above : ¬ r c a := fun back => apart.2 (IsTrans.trans _ _ _ less back)
  have together := incomparable_equivalence.trans (incomparable_symm apart) ⟨no, above⟩
  exact together.1 less

theorem lt_of_lt_of_not_lt (less : r a b) (notAbove : ¬ r c b) : r a c := by
  rcases lt_or_incomparable notAbove with next | apart
  · exact IsTrans.trans _ _ _ less next
  · exact lt_of_lt_of_incomparable less apart

theorem lt_of_not_lt_of_lt (notAbove : ¬ r b a) (less : r b c) : r a c := by
  rcases lt_or_incomparable notAbove with next | apart
  · exact IsTrans.trans _ _ _ next less
  · exact lt_of_incomparable_of_lt apart less

theorem not_lt_trans (first : ¬ r b a) (second : ¬ r c b) : ¬ r c a := by
  intro above
  exact second (lt_of_lt_of_not_lt above first)

end Order

/-! ### A new least element -/

theorem incomparable_option (x y : Option α) :
    Incomparable (Option.lt r) x y ↔ Option.Rel (Incomparable r) x y := by
  cases x <;> cases y <;> simp [Incomparable, Option.lt]

instance isStrictWeakOrder_option [IsStrictWeakOrder α r] :
    IsStrictWeakOrder (Option α) (Option.lt r) where
  irrefl x := by
    cases x with
    | none => exact id
    | some a => exact irrefl (r := r) a
  trans x y z first second := by
    cases x with
    | none => cases y <;> cases z <;> simp_all [Option.lt]
    | some a =>
      cases y with
      | none => exact first.elim
      | some b =>
        cases z with
        | none => exact second.elim
        | some c => exact IsTrans.trans (r := r) _ _ _ first second
  incomp_trans x y z first second := by
    rw [← Incomparable, incomparable_option] at first second ⊢
    cases first with
    | none => exact second
    | some first =>
      cases second with
      | some second => exact .some (incomparable_equivalence.trans first second)

theorem not_lt_none (x : Option α) : ¬ Option.lt r x none := by
  cases x <;> exact id

end WeakOrder
