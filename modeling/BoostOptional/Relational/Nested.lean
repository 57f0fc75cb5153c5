import Mathlib.Data.Fin.SuccPred
import Mathlib.Data.Sum.Basic
import BoostOptional.Relational.Ordering

/-!
Optionals of optionals. The operators and `std::hash` (`detail/optional_hash.hpp`) of an `optional<T>`
use those of `T`, which may be an optional itself. At every depth a value is either a `T` or an empty
optional at one of the levels, and the operators order these: the outer the empty level, the less.
-/

namespace BoostOptional.Relational
open WeakOrder

variable {T S : Type}

/-- `optional<...<optional<T>>...>` with `n` optionals. -/
def Nested (T : Type) : Nat → Type
  | 0 => T
  | n + 1 => Option (Nested T n)

/-- The operators that the overloads for an `optional<T>` against an `optional<T>` define. -/
def Comparison.lift (t : Comparison T) : Comparison (Option T) := ⟨OptOpt.eq t, OptOpt.lt t⟩

def Comparison.nest (t : Comparison T) : (n : Nat) → Comparison (Nested T n)
  | 0 => t
  | n + 1 => (t.nest n).lift

/-- `std::hash<boost::optional<T> >`, where `zero` is `result_type()`. -/
def hash (zero : S) (hashT : T → S) (arg : Option T) : S :=
  match arg with
  | some v => hashT v
  | none => zero

def Nested.hash (zero : S) (hashT : T → S) : (n : Nat) → Nested T n → S
  | 0, v => hashT v
  | n + 1, arg => Relational.hash zero (Nested.hash zero hashT n) arg

/-- The level that is empty, counted from outside, or the `T`. -/
def Nested.level : (n : Nat) → Nested T n → Fin n ⊕ T
  | 0, v => .inr v
  | _ + 1, none => .inl 0
  | n + 1, some x => (Nested.level n x).map Fin.succ id

def Comparison.Equal (t : Comparison T) (a b : T) : Prop := t.eq a b = true

/-! ### Levels -/

theorem level_injective (n : Nat) : Function.Injective (Nested.level n : Nested T n → Fin n ⊕ T) := by
  induction n with
  | zero => exact fun x y same => Sum.inr.inj same
  | succ n ih =>
    intro x y same
    cases x with
    | none =>
      cases y with
      | none => rfl
      | some y =>
        cases place : Nested.level n y <;> simp [Nested.level, place, (Fin.succ_ne_zero _).symm] at same
    | some x =>
      cases y with
      | none => cases place : Nested.level n x <;> simp [Nested.level, place, Fin.succ_ne_zero] at same
      | some y =>
        have deeper : Nested.level n x = Nested.level n y :=
          Function.Injective.sumMap (Fin.succ_injective n) Function.injective_id same
        exact congrArg some (ih deeper)

theorem level_surjective (n : Nat) : Function.Surjective (Nested.level n : Nested T n → Fin n ⊕ T) := by
  induction n with
  | zero =>
    intro place
    cases place with
    | inl k => exact k.elim0
    | inr v => exact ⟨v, rfl⟩
  | succ n ih =>
    intro place
    cases place with
    | inl k =>
      cases k using Fin.cases with
      | zero => exact ⟨none, rfl⟩
      | succ k =>
        obtain ⟨x, there⟩ := ih (.inl k)
        exact ⟨some x, by simp [Nested.level, there]⟩
    | inr v =>
      obtain ⟨x, there⟩ := ih (.inr v)
      exact ⟨some x, by simp [Nested.level, there]⟩

/-! ### The operators -/

theorem nest_lt (t : Comparison T) (n : Nat) (x y : Nested T n) :
    (t.nest n).lt x y = true ↔ Sum.Lex (· < ·) t.Less (Nested.level n x) (Nested.level n y) := by
  induction n with
  | zero => exact (Sum.lex_inr_inr (r := fun k l : Fin 0 => k < l) (s := t.Less)).symm
  | succ n ih =>
    cases x with
    | none =>
      cases y with
      | none => simp [Comparison.nest, Comparison.lift, OptOpt.lt, Nested.level]
      | some y =>
        cases place : Nested.level n y <;> simp [Comparison.nest, Comparison.lift, OptOpt.lt, Nested.level, place]
    | some x =>
      cases y with
      | none =>
        cases place : Nested.level n x <;> simp [Comparison.nest, Comparison.lift, OptOpt.lt, Nested.level, place]
      | some y =>
        change (t.nest n).lt x y = true ↔ _
        rw [ih]
        cases first : Nested.level n x <;> cases second : Nested.level n y <;>
          simp [Nested.level, first, second]

theorem nest_eq (t : Comparison T) (n : Nat) (x y : Nested T n) :
    (t.nest n).eq x y = true ↔ Sum.LiftRel (· = ·) t.Equal (Nested.level n x) (Nested.level n y) := by
  induction n with
  | zero => exact (Sum.liftRel_inr_inr (r := fun k l : Fin 0 => k = l) (s := t.Equal)).symm
  | succ n ih =>
    cases x with
    | none =>
      cases y with
      | none => simp [Comparison.nest, Comparison.lift, OptOpt.eq, Nested.level]
      | some y =>
        cases place : Nested.level n y <;>
          simp [Comparison.nest, Comparison.lift, OptOpt.eq, Nested.level, place, (Fin.succ_ne_zero _).symm]
    | some x =>
      cases y with
      | none =>
        cases place : Nested.level n x <;>
          simp [Comparison.nest, Comparison.lift, OptOpt.eq, Nested.level, place, Fin.succ_ne_zero]
      | some y =>
        change (t.nest n).eq x y = true ↔ _
        rw [ih]
        cases first : Nested.level n x <;> cases second : Nested.level n y <;>
          simp [Nested.level, first, second]

/-- An empty optional hashes to zero at whatever level it is. -/
theorem hash_level (zero : S) (hashT : T → S) (n : Nat) (x : Nested T n) :
    Nested.hash zero hashT n x = Sum.elim (fun _ => zero) hashT (Nested.level n x) := by
  induction n with
  | zero => rfl
  | succ n ih =>
    cases x with
    | none => rfl
    | some x =>
      change Nested.hash zero hashT n x = _
      rw [ih]
      cases place : Nested.level n x <;> simp [Nested.level, place]

/-! ### The order at every depth -/

theorem incomparable_lex {n : Nat} (t : Comparison T) (coherent : t.Coherent) (p q : Fin n ⊕ T) :
    Sum.LiftRel (· = ·) t.Equal p q ↔ Incomparable (Sum.Lex (· < ·) t.Less) p q := by
  cases p with
  | inl k =>
    cases q with
    | inl l =>
      simp only [Sum.liftRel_inl_inl, Incomparable, Sum.lex_inl_inl]
      omega
    | inr v => simp [Incomparable]
  | inr u =>
    cases q with
    | inl l => simp [Incomparable]
    | inr v =>
      simp only [Sum.liftRel_inr_inr, Incomparable, Sum.lex_inr_inr]
      exact coherent u v

theorem nest_coherent {t : Comparison T} (coherent : t.Coherent) (n : Nat) : (t.nest n).Coherent := by
  intro x y
  rw [nest_eq, incomparable_lex t coherent]
  simp only [Incomparable, Comparison.Less, nest_lt]

theorem nest_weak {t : Comparison T} (weak : IsStrictWeakOrder T t.Less) (n : Nat) :
    IsStrictWeakOrder (Nested T n) (t.nest n).Less := by
  induction n with
  | zero => exact weak
  | succ n ih =>
    have same : (t.nest (n + 1)).Less = Option.lt (t.nest n).Less := by
      funext x y
      exact propext (lt_option x y)
    rw [same]
    exact isStrictWeakOrder_option

/-- At every depth an empty optional or a `T` is ordered by its level and then by `T`'s own order, the
operators on operands of all kinds order them, and equal ones hash alike. -/
theorem nested_ordering (zero : S) (t : Comparison T) (n : Nat) :
    Function.Bijective (Nested.level n : Nested T n → Fin n ⊕ T) ∧
    (∀ x y, (t.nest n).lt x y = true ↔ Sum.Lex (· < ·) t.Less (Nested.level n x) (Nested.level n y)) ∧
    (∀ x y, (t.nest n).eq x y = true ↔ Sum.LiftRel (· = ·) t.Equal (Nested.level n x) (Nested.level n y)) ∧
    (IsStrictWeakOrder T t.Less → t.Coherent → IsOrdering (t.nest n)) ∧
    ∀ hashT : T → S, (∀ a b, t.Equal a b → hashT a = hashT b) →
      ∀ x y, (t.nest n).eq x y = true → Nested.hash zero hashT n x = Nested.hash zero hashT n y := by
  refine ⟨⟨level_injective n, level_surjective n⟩, nest_lt t n, nest_eq t n, ?_, ?_⟩
  · intro weak coherent
    have ordered := nest_weak weak n
    exact isOrdering (nest_coherent coherent n)
  · intro hashT agrees x y equal
    rw [nest_eq] at equal
    rw [hash_level, hash_level]
    generalize Nested.level n x = p at equal ⊢
    generalize Nested.level n y = q at equal ⊢
    cases equal with
    | inl _ => rfl
    | inr same => exact agrees _ _ same

/-- `optional<optional<int>>`: an empty one, one with an empty one in it, and two with the same last digit. -/
theorem nested_ordering_lastDigit :
    IsOrdering (lastDigit.nest 2) ∧ (lastDigit.nest 2).lt none (some none) = true ∧
      (lastDigit.nest 2).lt (some none) (some (some (3 : Nat))) = true ∧
      Nested.hash 0 (· % 10) 2 (some (some (13 : Nat))) = Nested.hash 0 (· % 10) 2 (some (some (3 : Nat))) := by
  have agrees : ∀ a b, lastDigit.Equal a b → a % 10 = b % 10 := fun a b same => by
    simpa [Comparison.Equal, lastDigit] using same
  obtain ⟨_, less, _, ordering, hashes⟩ := nested_ordering (0 : Nat) lastDigit 2
  exact ⟨ordering lastDigit_weak lastDigit_coherent, (less _ _).mpr (.inl (by decide)), (less _ _).mpr (.sep _ _),
    hashes (· % 10) agrees _ _ rfl⟩

end BoostOptional.Relational
