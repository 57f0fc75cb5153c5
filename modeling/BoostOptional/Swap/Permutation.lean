import BoostOptional.Swap.DirectSwap
import Mathlib.Algebra.Group.End

/-!
A run of swaps permutes the contents of the optionals by the product of its transpositions, in every
implementation of the storage and with either swap of `optional_swap.hpp`. The exchange of two
optionals through a temporary one gives what their swap gives.
-/

namespace BoostOptional
open Effect Prog Memory

variable {α ε : Type}

namespace Storage

def swap (E : Element α) (b : Behaviour α ε) : Storage → Bool → ObjId → ObjId → Code α ε Unit
  | .union, _, x, y => Union.swap E b x y
  | .aligned, useDefault, x, y => Aligned.swap b useDefault x y
  | .direct, useDefault, x, y => Direct.swap b useDefault x y

abbrev SwapOp : Type := Bool × ObjId × ObjId

def swapSystem (E : Element α) (b : Behaviour α ε) (storage : Storage) :
    System (World α) ε Fault SwapOp where
  exec op := storage.swap E b op.1 op.2.1 op.2.2
  legal op w := w.flag op.2.1 ≠ none ∧ w.flag op.2.2 ≠ none

/-- `optional_uses_direct_storage_for<T>`, less the class types for which a program specializes it. -/
def Fits (E : Element α) (storage : Storage) : Prop := storage = .direct → E.isScalar = true

/-- The states a program reaches. -/
def Sound (storage : Storage) (w : World α) : Prop :=
  match storage with
  | .direct => Direct.Sound w
  | _ => w.Consistent

end Storage

def transpositions (ops : List Storage.SwapOp) : Equiv.Perm ObjId :=
  (ops.map fun op => Equiv.swap op.2.1 op.2.2).prod

/-- `optional<T> tmp(move(x)); x = move(y); y = move(tmp);`, and the destructor of `tmp`. -/
def Union.moveExchange (E : Element α) (b : Behaviour α ε) (constexprCopy : Bool) (tmp x y : ObjId) :
    Code α ε Unit := do
  moveCtor E b constexprCopy tmp x
  moveAssign E b x y
  moveAssign E b y tmp
  destructor E tmp

section Swap

variable (E : Element α) (b : Behaviour α ε) {w : World α}

theorem document_content {o : ObjId} (here : w.flag o ≠ none) : ∃ c, w.document.content o = some c := by
  obtain ⟨init, flag⟩ := Option.ne_none_iff_exists'.mp here
  exact ⟨(w.cell o).value?, by simp only [World.document, flag, Option.map_some]⟩

theorem implements_exchanges {c : Code α ε Unit} {a : Spec.Doc α ε Unit} {x y : ObjId}
    (implements : Implements c a)
    (consistent : w.Consistent)
    (content : (a w.document).Holds (fun _ t => t.content = Spec.exchanged w.document.content x y)
      fun _ _ => True) :
    (c w).Holds (fun _ w' => w'.Consistent ∧ w'.contents = Spec.exchanged w.contents x y)
      fun _ _ => True := by
  have rep := consistent_represents consistent
  refine ((implements w _ rep).holds content).mono (fun _ w' after => ?_) (fun _ _ _ => trivial)
  obtain ⟨t, rep', exchange⟩ := after
  exact ⟨rep'.consistent, by rw [rep'.contents_eq, rep.contents_eq, exchange]⟩

theorem Union.moveExchange_implements (constexprCopy : Bool) {tmp x : ObjId} (different : x ≠ tmp)
    (y : ObjId) :
    Implements (Union.moveExchange E b constexprCopy tmp x y) (Spec.moveExchange b tmp x y) :=
  refines_bind (Union.optionalCtor_implements E b constexprCopy different _ _) fun _ =>
    refines_bind (Union.assignFrom_implements E b x (isInitialized_implements y) _) fun _ =>
      refines_bind (Union.assignFrom_implements E b y (isInitialized_implements tmp) _) fun _ =>
        Union.storageDestructor_implements E tmp

variable (transfers : Transfers b)

include transfers in
theorem Storage.swap_exchanges (scalar : E.isScalar = true → Scalar b) (storage : Storage)
    (fits : storage.Fits E)
    (sound : storage.Sound w) (op : SwapOp) (legal : (storage.swapSystem E b).legal op w) :
    ((storage.swapSystem E b).exec op w).Holds
      (fun _ w' => storage.Sound w' ∧ w'.contents = Spec.exchanged w.contents op.2.1 op.2.2)
        fun _ _ => True := by
  obtain ⟨useDefault, x, y⟩ := op
  obtain ⟨hereX, hereY⟩ := legal
  obtain ⟨c, contentX⟩ := document_content hereX
  obtain ⟨d, contentY⟩ := document_content hereY
  cases storage with
  | union =>
    exact implements_exchanges (Union.swap_implements E b x y) sound
      (Spec.swap_content b transfers contentX contentY)
  | aligned =>
    refine implements_exchanges (Aligned.swap_implements b useDefault x y) sound ?_
    cases useDefault with
    | false => exact Spec.swap_content b transfers contentX contentY
    | true => exact Spec.swapDefault_content b transfers contentX contentY
  | direct =>
    obtain ⟨w', ran, after, exchange⟩ :=
      Direct.swap_exchanges b (scalar (fits rfl)) useDefault sound hereX hereY
    simp only [swapSystem, swap, ran]
    exact ⟨after, exchange⟩

include transfers in
theorem Storage.run_permutes (scalar : E.isScalar = true → Scalar b) (storage : Storage)
    (fits : storage.Fits E)
    {w' : World α} {ops : List SwapOp} (sound : storage.Sound w)
    (run : (storage.swapSystem E b).Run w (ops.map fun op => (op, none)) w') :
    storage.Sound w' ∧ w'.contents = w.contents ∘ transpositions ops := by
  induction ops generalizing w with
  | nil =>
    cases run
    exact ⟨sound, rfl⟩
  | cons op rest ih =>
    cases run with
    | cons legal step tail =>
      rename_i u
      have swapped := storage.swap_exchanges E b transfers scalar fits sound _ legal
      have after : storage.Sound u ∧ u.contents = Spec.exchanged w.contents op.2.1 op.2.2 := by
        cases outcome : (storage.swapSystem E b).exec op w with
        | ok _ v =>
          rw [outcome] at swapped step
          exact step.2 ▸ swapped
        | thrown e v =>
          rw [outcome] at step
          exact nomatch step.1
        | fault f =>
          rw [outcome] at step
          exact step.elim
      obtain ⟨soundEnd, contents⟩ := ih after.1 tail
      refine ⟨soundEnd, ?_⟩
      simp only [contents, after.2, transpositions, List.map_cons, List.prod_cons]
      rfl

include transfers in
theorem Union.moveExchange_exchanges (constexprCopy : Bool) {tmp x y : ObjId}
    (consistent : w.Consistent)
    (apart : x ≠ y) (absent : w.flag tmp = none) (hereX : w.flag x ≠ none) (hereY : w.flag y ≠ none) :
    (Union.moveExchange E b constexprCopy tmp x y w).Holds
      (fun _ w' => w'.Consistent ∧ w'.contents = Spec.exchanged w.contents x y) fun _ _ => True := by
  have different : x ≠ tmp := fun same => hereX (same ▸ absent)
  obtain ⟨c, contentX⟩ := document_content hereX
  obtain ⟨d, contentY⟩ := document_content hereY
  refine implements_exchanges
    (Union.moveExchange_implements E b constexprCopy different y) consistent ?_
  exact Spec.moveExchange_content b transfers apart
    (by simp only [World.document, absent, Option.map_none])
    contentX contentY

/-- Swapping never loses or duplicates a value, and a legal swap after any swaps has no fault. -/
theorem Storage.swap_permutation (transfers : Transfers b) (scalar : E.isScalar = true → Scalar b) :
    (∀ (storage : Storage) (w w' : World α) (ops : List SwapOp), storage.Fits E → storage.Sound w →
      (storage.swapSystem E b).Run w (ops.map fun op => (op, none)) w' →
      (∀ o, w'.contents o = w.contents (transpositions ops o)) ∧
      ∀ op, (storage.swapSystem E b).legal op w' →
        ((storage.swapSystem E b).exec op w').Holds (fun _ _ => True) fun _ _ => True) ∧
    (∀ (w : World α) (constexprCopy : Bool) (tmp x y : ObjId), w.Consistent → x ≠ y →
      w.flag tmp = none →
      w.flag x ≠ none → w.flag y ≠ none →
      (Union.moveExchange E b constexprCopy tmp x y w).Holds (fun _ w₁ =>
        (Union.swap E b x y w).Holds (fun _ w₂ => w₁.contents = w₂.contents) fun _ _ =>
          True) fun _ _ => True) := by
  constructor
  · intro storage w w' ops fits sound run
    obtain ⟨soundEnd, contents⟩ := storage.run_permutes E b transfers scalar fits sound run
    refine ⟨congrFun contents, fun op legal => ?_⟩
    exact (storage.swap_exchanges E b transfers scalar fits soundEnd op legal).mono
      (fun _ _ _ => trivial) fun _ _ done => done
  · intro w constexprCopy tmp x y consistent apart absent hereX hereY
    have exchange :=
      Union.moveExchange_exchanges E b transfers constexprCopy consistent apart absent hereX hereY
    have swapped := Storage.union.swap_exchanges E b transfers scalar
      (fun direct => by cases direct) consistent (false, x, y) ⟨hereX, hereY⟩
    refine exchange.mono (fun _ w₁ after => ?_) (fun _ _ done => done)
    exact swapped.mono (fun _ w₂ after' => after.2.trans after'.2.symm) (fun _ _ done => done)

end Swap

theorem intLike_transfers {ε : Type} : Transfers (intLike fun _ _ => (none : Option ε)) where
  swap trace values x y v u heldX heldY _ := by
    by_cases same : y = x <;> simp_all [intLike]
  construct trace values dst src v held _ := by simp [intLike, held]
  assign trace values dst src v _ held _ := by simp [intLike, held]

/-- Of two optionals, the one with the value is swapped with the other. -/
theorem Storage.swap_permutation_oneSided :
    ∃ w w' : World Int, w.contents (.named 0) = some (some 1) ∧ w.contents (.named 1) = some none ∧
      (Storage.union.swapSystem (.nontrivial Int) (intLike fun _ _ => (none : Option Unit))).Run w
        [((false, .named 0, .named 1), none)] w' ∧
      w'.contents (.named 0) = some none ∧ w'.contents (.named 1) = some (some 1) := by
  obtain ⟨w, w', consistent, full, empty, run⟩ : ∃ w w' : World Int, w.Consistent ∧
      w.contents (.named 0) = some (some 1) ∧ w.contents (.named 1) = some none ∧
      (Storage.union.swapSystem (.nontrivial Int) (intLike fun _ _ => (none : Option Unit))).Run w
        [((false, .named 0, .named 1), none)] w' := by
    refine ⟨(((World.initial fun _ => 1).setFlag (.named 1) (some false)).setFlag (.named 0)
      (some true)).setCell
      (.named 0) (.live 1), _, fun o => ?_, rfl, rfl, .cons ⟨by decide, by decide⟩ ⟨rfl, rfl⟩ (.nil _)⟩
    by_cases first : o = .named 0
    · simp [first, World.setCell, World.setFlag, World.value, Cell.value?]
    · simp [first, World.setCell, World.setFlag, World.value, World.initial, Cell.value?]
  have permuted := ((Storage.swap_permutation (.nontrivial Int) _ intLike_transfers
    (fun scalar => absurd scalar Bool.false_ne_true)).1 .union w w'
    [(false, .named 0, .named 1)] (fun direct => by cases direct) consistent run).1
  refine ⟨w, w', full, empty, run, ?_, ?_⟩
  · rw [permuted]
    exact empty
  · rw [permuted]
    exact full

end BoostOptional
