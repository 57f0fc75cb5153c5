import BoostOptional.Relational.Operators

/-!
The order that the operators define on operands of all kinds: `none`, and above it the values of
`T` as `T` orders them.
-/

namespace BoostOptional.Relational
open WeakOrder

variable {T : Type} (t : Comparison T)

/-- `x op y`, with both operands taken as an `optional<T>`. -/
def Holds (op : Operator) (x y : Operand T) : Prop := lifted t op x.toOptional y.toOptional = true

def Comparison.Less (a b : T) : Prop := t.lt a b = true

/-- `T`'s `==` is the incomparability of its `<`. -/
def Comparison.Coherent : Prop := ∀ a b, t.eq a b = true ↔ Incomparable t.Less a b

variable {t} {x y z : Operand T}

theorem lt_option (a b : Option T) : OptOpt.lt t a b = true ↔ Option.lt t.Less a b := by
  cases a <;> cases b <;> simp [OptOpt.lt, Option.lt, Comparison.Less]

theorem eq_option (coherent : t.Coherent) (a b : Option T) :
    OptOpt.eq t a b = true ↔ Incomparable (Option.lt t.Less) a b := by
  rw [incomparable_option]
  cases a <;> cases b <;> simp [OptOpt.eq, coherent _ _]

theorem holds_lt : Holds t .lt x y ↔ Option.lt t.Less x.toOptional y.toOptional := lt_option _ _

theorem holds_gt : Holds t .gt x y ↔ Holds t .lt y x := Iff.rfl

theorem holds_le : Holds t .le x y ↔ ¬ Holds t .lt y x := by
  simp [Holds, lifted, OptOpt.le]

theorem holds_ge : Holds t .ge x y ↔ ¬ Holds t .lt x y := by
  simp [Holds, lifted, OptOpt.ge]

theorem holds_ne : Holds t .ne x y ↔ ¬ Holds t .eq x y := by
  simp [Holds, lifted, OptOpt.ne]

theorem holds_eq (coherent : t.Coherent) : Holds t .eq x y ↔ Incomparable (Holds t .lt) x y := by
  unfold Incomparable
  rw [holds_lt, holds_lt]
  exact eq_option coherent _ _

/-- Order facts about the operands, whatever their kinds. -/
structure IsOrdering (t : Comparison T) : Prop where
  weak : IsStrictWeakOrder (Operand T) (Holds t .lt)
  least : ∀ n x, Holds t .lt (.none n) x ↔ x.toOptional ≠ none
  above : ∀ n x, ¬ Holds t .lt x (.none n)
  incomparable : ∀ x y, Holds t .eq x y ↔ Incomparable (Holds t .lt) x y
  equivalence : Equivalence (Holds t .eq)
  ne : ∀ x y, Holds t .ne x y ↔ ¬ Holds t .eq x y
  gt : ∀ x y, Holds t .gt x y ↔ Holds t .lt y x
  le : ∀ x y, Holds t .le x y ↔ Holds t .lt x y ∨ Holds t .eq x y
  ge : ∀ x y, Holds t .ge x y ↔ Holds t .lt y x ∨ Holds t .eq x y
  lt_le : ∀ x y z, Holds t .lt x y → Holds t .le y z → Holds t .lt x z
  le_lt : ∀ x y z, Holds t .le x y → Holds t .lt y z → Holds t .lt x z
  le_le : ∀ x y z, Holds t .le x y → Holds t .le y z → Holds t .le x z

section Weak

variable [IsStrictWeakOrder T t.Less]

instance : IsStrictWeakOrder (Operand T) (Holds t .lt) := by
  have same : Holds t .lt = Order.Preimage Operand.toOptional (Option.lt t.Less) := by
    funext x y
    exact propext holds_lt
  rw [same]
  infer_instance

theorem le_iff (coherent : t.Coherent) : Holds t .le x y ↔ Holds t .lt x y ∨ Holds t .eq x y := by
  rw [holds_le, holds_eq coherent]
  constructor
  · exact lt_or_incomparable
  · rintro (less | apart)
    · exact fun back => irrefl (r := Holds t .lt) x (IsTrans.trans _ _ _ less back)
    · exact apart.2

theorem isOrdering (coherent : t.Coherent) : IsOrdering t where
  weak := inferInstance
  least n x := by
    rw [holds_lt]
    cases held : x.toOptional <;> simp [Operand.toOptional, Option.lt]
  above n x := by
    rw [holds_lt]
    exact not_lt_none _
  incomparable _ _ := holds_eq coherent
  equivalence := by
    have same : Holds t .eq = Incomparable (Holds t .lt) := by
      funext x y
      exact propext (holds_eq coherent)
    rw [same]
    exact incomparable_equivalence
  ne _ _ := holds_ne
  gt _ _ := holds_gt
  le _ _ := le_iff coherent
  ge x y := by
    have swapped := le_iff (x := y) (y := x) coherent
    have symmetric : Holds t .eq y x ↔ Holds t .eq x y := by
      rw [holds_eq coherent, holds_eq coherent]
      exact ⟨incomparable_symm, incomparable_symm⟩
    rw [holds_ge, ← holds_le, swapped, symmetric]
  lt_le x y z less below := lt_of_lt_of_not_lt less (holds_le.mp below)
  le_lt x y z below less := lt_of_not_lt_of_lt (holds_le.mp below) less
  le_le x y z first second := holds_le.mpr (not_lt_trans (holds_le.mp first) (holds_le.mp second))

end Weak

/-- Every overload is the lifted operator, and with a strict weak order on `T` the operators order
the operands of all kinds. -/
theorem overloads_ordering (t : Comparison T) :
    (∀ op (x y : Operand T), x.isOptional = true ∨ y.isOptional = true →
      apply t op x y = some (lifted t op x.toOptional y.toOptional)) ∧
    (IsStrictWeakOrder T t.Less → t.Coherent → IsOrdering t) := by
  constructor
  · intro op x y optional
    exact apply_lifted op optional
  · intro weak coherent
    exact isOrdering coherent

def lastDigit : Comparison Nat := ⟨fun a b => a % 10 == b % 10, fun a b => a % 10 < b % 10⟩

theorem lastDigit_weak : IsStrictWeakOrder Nat lastDigit.Less where
  irrefl := by simp [Comparison.Less, lastDigit]
  trans := by
    intro a b c
    simp only [Comparison.Less, lastDigit, decide_eq_true_eq]
    omega
  incomp_trans := by
    intro a b c
    simp only [Comparison.Less, lastDigit, decide_eq_true_eq]
    omega

theorem lastDigit_coherent : lastDigit.Coherent := by
  intro a b
  simp only [Incomparable, Comparison.Less, lastDigit, decide_eq_true_eq, beq_iff_eq]
  omega

theorem lastDigit_ordering :
    apply lastDigit .le (.val 13) (.opt (some 3)) = some (lifted lastDigit .le (some 13) (some 3)) ∧
      IsOrdering lastDigit :=
  ⟨(overloads_ordering lastDigit).1 .le (.val 13) (.opt (some 3)) (.inr rfl),
    (overloads_ordering lastDigit).2 lastDigit_weak lastDigit_coherent⟩

end BoostOptional.Relational
