import BoostOptional.Safety.Exceptions
import BoostOptional.Swap.Permutation
import BoostOptional.Noexcept.Silence

/-!
A swap that throws. When `T`'s own swap and move constructor restore their operands, the swaps that
move a value across restore both optionals. The swap through a default-constructed `T` does not: once
it has put that `T` into the empty optional, a throw of `T`'s swap leaves it there.
-/

namespace BoostOptional
open Effect Prog Memory

variable {α ε : Type} (b : Behaviour α ε)

/-- `T`'s swap and move constructor leave their operands unchanged when they throw. A default
constructor has no operands. -/
structure SwapStrong : Prop where
  swap : ∀ x y, Spec.Restores b (.swap x y)
  move : ∀ dst src, Spec.Restores b (.construct .direct dst [⟨src, .rvalue, .self⟩])

def World.SameAt (w w' : World α) (o : ObjId) : Prop :=
  w'.flag o = w.flag o ∧ w'.value (.contained o) = w.value (.contained o)

/-- A `T` is constructed by default in `dst`, and then `T`'s swap of `x` and `y` throws. -/
def SwapOfDefaultThrows (dst x y : ObjId) (w : World α) : Prop :=
  let made := Call.construct .direct (.contained dst) []
  let fresh := b w.trace made w.value
  fresh.threw = none ∧
    (b (made :: w.trace) (.swap (.contained x) (.contained y))
      (fun l => if l = .contained dst then some fresh.result else w.value l)).threw ≠ none

/-- `swap_selector<true>` gets as far as the throw of `T`'s swap, with one of the two optionals
empty. -/
def Storage.SwapsDefault (storage : Storage) (useDefault : Bool) (x y : ObjId) (w : World α) : Prop :=
  storage = .aligned ∧ useDefault = true ∧
    (w.flag x = some false ∧ w.flag y = some true ∧ SwapOfDefaultThrows b x x y w ∨
      w.flag x = some true ∧ w.flag y = some false ∧ SwapOfDefaultThrows b y x y w)

theorem World.Same.at {w w' : World α} (same : w.Same w') (o : ObjId) : w.SameAt w' o :=
  ⟨congrFun same.1 o, same.2 _⟩

/-! ### Moving a value across -/

namespace Spec

variable {s : State α} {x y : ObjId} {b}

theorem exchange_undone (strong : SwapStrong b) (fullX : s.occupancy.flag x = some true)
    (fullY : s.occupancy.flag y = some true) :
    (invokeSwap b (.contained x) (.contained y) s).Holds (fun _ _ => True)
    (fun _ t => Undone True s t) := by
  have live : ∀ l ∈ (Call.swap (.contained x) (.contained y)).operands, s.occupancy.live l = true := by
    simp [Call.operands, Occupancy.live, fullX, fullY]
  have liveX : (value s (.contained x)).isSome = true := by simp [value_isSome, Occupancy.live, fullX]
  have liveY : (value s (.contained y)).isSome = true := by simp [value_isSome, Occupancy.live, fullY]
  cases threw : (b (trace s) (.swap (.contained x) (.contained y)) (value s)).threw with
  | none =>
    rw [invokeSwap_returns liveX liveY threw]
    trivial
  | some e =>
    rw [invokeSwap_throws liveX liveY threw]
    exact called_undone b True live (fun _ => strong.swap _ _) threw

theorem transfer_undone (strong : SwapStrong b) {dst src : ObjId}
    (empty : s.occupancy.flag dst = some false)
    (full : s.occupancy.flag src = some true) :
    (transfer b dst src s).Holds (fun _ _ => True) (fun _ t => Undone True s t) := by
  have apart : src ≠ dst := fun same => by simp [same, empty] at full
  have made : (create b .direct dst [⟨.contained src, .rvalue, .self⟩] s).Holds
      (fun _ t => t.occupancy = s.occupancy.set dst (some true)) (fun _ t => Undone True s t) :=
    create_holds b True empty (by simp [Occupancy.live, full]) fun _ => strong.move _ _
  unfold transfer
  apply holds_andThen made
  intro _ t occupied
  have there : t.occupancy.flag src = some true := by rw [occupied, Occupancy.set_other _ _ apart, full]
  exact (clear_holds there).mono (fun _ _ _ => trivial) (fun _ _ undone => undone)

theorem swap_undone (strong : SwapStrong b) {hasX hasY : Bool} (hereX : s.occupancy.flag x = some hasX)
    (hereY : s.occupancy.flag y = some hasY) :
    (swap b x y s).Holds (fun _ _ => True) (fun _ t => Undone True s t) := by
  rw [swap_eq b (engaged_holds hereX) (engaged_holds hereY)]
  cases hasX with
  | true =>
    cases hasY with
    | true => exact exchange_undone strong hereX hereY
    | false => exact transfer_undone strong hereY hereX
  | false =>
    cases hasY with
    | true => exact transfer_undone strong hereX hereY
    | false => trivial

end Spec

/-! ### Through a default-constructed value -/

section Default

variable {w w' : World α} {x y dst src : ObjId}

def withDefault (dst : ObjId) (w : World α) : World α :=
  let made := Call.construct .direct (.contained dst) []
  let fresh := b w.trace made w.value
  (place (log (update w [] fresh.after) made) (.contained dst) fresh.result).setFlag dst (some true)

theorem withDefault_value (dst : ObjId) (w : World α) : (withDefault b dst w).value = fun l =>
    if l = .contained dst then some (b w.trace (.construct .direct (.contained dst) []) w.value).result
    else w.value l := by
  funext l
  unfold withDefault
  rw [World.setFlag_value, World.place_value, World.called_value, if_neg List.not_mem_nil]

theorem withDefault_flag (dst : ObjId) (w : World α) : (withDefault b dst w).flag dst = some true :=
  World.setFlag_flag _ _ _

theorem withDefault_flag_other (w : World α) {dst o : ObjId} (other : o ≠ dst) :
    (withDefault b dst w).flag o = w.flag o :=
  World.setFlag_flag_other _ _ other

theorem emplace_eq (empty : w.flag dst = some false) (vacant : w.value (.contained dst) = none) :
    Aligned.emplace b dst [] w =
      match (b w.trace (.construct .direct (.contained dst) []) w.value).threw with
      | some e => .thrown e (log (update w [] (b w.trace (.construct .direct (.contained dst) []) w.value).after)
          (.construct .direct (.contained dst) []))
      | none => .ok () (withDefault b dst w) := by
  have idle : (Aligned.destroy dst : Code α ε Unit) w = .ok () w := by
    rw [Aligned.destroy, bind_apply, andThen_ok (isInitialized_eq empty)]
    rfl
  unfold Aligned.emplace Aligned.emplaceAssign Aligned.constructInPlace
  rw [bind_apply, andThen_ok idle, bind_apply]
  cases threw : (b w.trace (.construct .direct (.contained dst) []) w.value).threw with
  | none =>
    rw [andThen_ok (constructT_returns vacant rfl threw)]
    rfl
  | some e =>
    rw [andThen_thrown (constructT_throws vacant rfl threw)]
    rfl

theorem throughDefault_restores (consistent : w.Consistent) (empty : w.flag dst = some false)
    (full : w.flag src = some true) (sides : x = dst ∧ y = src ∨ x = src ∧ y = dst) :
    (∀ e w', (do Aligned.emplace b dst []; swapValues b x y (Aligned.destroy src) : Code α ε Unit) w = .thrown e w' →
        w.SameAt w' x ∧ w.SameAt w' y) ↔ ¬ SwapOfDefaultThrows b dst x y w := by
  have apart : src ≠ dst := by
    intro same
    rw [same, empty] at full
    cases full
  have vacant : w.value (.contained dst) = none := by
    rw [← Option.not_isSome_iff_eq_none, consistent dst, empty]
    simp
  have emplaced := emplace_eq b empty vacant
  cases fresh : (b w.trace (.construct .direct (.contained dst) []) w.value).threw with
  | some e =>
    rw [fresh] at emplaced
    rw [bind_apply, andThen_thrown emplaced]
    refine iff_of_true (fun e' w' threw => ?_) fun throws => nomatch fresh.symm.trans throws.1
    cases threw
    have same : w.Same (log
        (update w [] (b w.trace (.construct .direct (.contained dst) []) w.value).after)
        (.construct .direct (.contained dst) [])) :=
      ⟨rfl, fun l => (World.called_value w [] _ _ l).trans (if_neg List.not_mem_nil)⟩
    exact ⟨same.at x, same.at y⟩
  | none =>
    rw [fresh] at emplaced
    rw [bind_apply, andThen_ok emplaced]
    have pair : ∀ P : ObjId → Prop, P dst → P src → P x ∧ P y := by
      intro P atDst atSrc
      rcases sides with ⟨rfl, rfl⟩ | ⟨rfl, rfl⟩
      · exact ⟨atDst, atSrc⟩
      · exact ⟨atSrc, atDst⟩
    obtain ⟨fullX, fullY⟩ := pair (fun o => (withDefault b dst w).flag o = some true)
      (withDefault_flag b dst w) ((withDefault_flag_other b w apart).trans full)
    obtain ⟨liveX, liveY⟩ := pair (fun o => ((withDefault b dst w).value (.contained o)).isSome = true)
      (by simp [withDefault_value]) (by simp [withDefault_value, apart, (consistent src).mpr full])
    have swapped := swapValues_called (b := b) (Aligned.destroy src) fullX fullY liveX liveY
    have throws : SwapOfDefaultThrows b dst x y w ↔ (b (withDefault b dst w).trace
        (.swap (.contained x) (.contained y)) (withDefault b dst w).value).threw ≠ none := by
      rw [withDefault_value]
      exact and_iff_right fresh
    rw [throws, swapped]
    cases threw : (b (withDefault b dst w).trace (.swap (.contained x) (.contained y)) (withDefault b dst w).value).threw with
    | some e =>
      refine iff_of_false (fun restored => ?_) fun quiet => quiet nofun
      have after := restored e (swapCalled b x y (withDefault b dst w)) rfl
      have atDst : w.SameAt (swapCalled b x y (withDefault b dst w)) dst := by
        rcases sides with ⟨rfl, -⟩ | ⟨-, rfl⟩
        · exact after.1
        · exact after.2
      -- the optional that was empty has kept the default-constructed value
      have engaged : (swapCalled b x y (withDefault b dst w)).flag dst = some true :=
        withDefault_flag b dst w
      rw [atDst.1, empty] at engaged
      cases engaged
    | none =>
      refine iff_of_true (fun e w' threw => ?_) fun raised => raised rfl
      exact absurd threw (Aligned.destroy_silent _ e w')

end Default

/-! ### Every storage -/

section Every

variable {E : Element α} {b} {w : World α} {x y : ObjId}

theorem implements_restores {c : Code α ε Unit} {a : Spec.Doc α ε Unit} (implements : Implements c a)
    (consistent : w.Consistent)
    (undone : (a w.document).Holds (fun _ _ => True) (fun _ t => Spec.Undone True w.document t))
      (e : ε) (w' : World α)
    (threw : c w = .thrown e w') : w.SameAt w' x ∧ w.SameAt w' y := by
  have rep := consistent_represents consistent
  have matched := implements w _ rep
  rw [threw] at matched
  obtain ⟨t, rep', back⟩ := matched.holds undone
  have same := back.same rep rep'
  exact ⟨same.at x, same.at y⟩

theorem document_swap_undone (strong : SwapStrong b) (hereX : w.flag x ≠ none) (hereY : w.flag y ≠ none)
    (consistent : w.Consistent) :
    (Spec.swap b x y w.document).Holds (fun _ _ => True)
    (fun _ t => Spec.Undone True w.document t) := by
  have rep := consistent_represents consistent
  obtain ⟨hasX, flagX⟩ := Option.ne_none_iff_exists'.mp hereX
  obtain ⟨hasY, flagY⟩ := Option.ne_none_iff_exists'.mp hereY
  exact Spec.swap_undone strong ((rep.flag_eq x).symm.trans flagX) ((rep.flag_eq y).symm.trans flagY)

theorem Aligned.swap_thrown_iff (strong : SwapStrong b) (hereX : w.flag x ≠ none)
    (hereY : w.flag y ≠ none)
    (consistent : w.Consistent) (useDefault : Bool) :
    (∀ e w', Aligned.swap b useDefault x y w = .thrown e w' → w.SameAt w' x ∧ w.SameAt w' y) ↔
      ¬ Storage.aligned.SwapsDefault b useDefault x y w := by
  have moved := implements_restores (x := x) (y := y) (Aligned.swap_implements b false x y) consistent
    (document_swap_undone strong hereX hereY consistent)
  cases useDefault with
  | false => exact iff_of_true moved fun throws => absurd throws.2.1 Bool.false_ne_true
  | true =>
    obtain ⟨hasX, flagX⟩ := Option.ne_none_iff_exists'.mp hereX
    obtain ⟨hasY, flagY⟩ := Option.ne_none_iff_exists'.mp hereY
    simp only [swap, legacySwap, if_true, Bool.false_eq_true, if_false, Storage.SwapsDefault,
      true_and, flagX, flagY]
      at moved ⊢
    rw [optionalSwapMove_eq _ flagX flagY] at moved
    rw [optionalSwapDefault_eq _ flagX flagY]
    cases hasX with
    | true =>
      cases hasY with
      | true => exact iff_of_true moved (by simp)
      | false =>
        simpa [legacyOps, assignNone] using throughDefault_restores b consistent flagY flagX
          (.inr ⟨rfl, rfl⟩)
    | false =>
      cases hasY with
      | true =>
        simpa [legacyOps, assignNone] using throughDefault_restores b consistent flagX flagY
          (.inl ⟨rfl, rfl⟩)
      | false => exact iff_of_true moved (by simp)

/-- A swap that throws leaves both optionals as they were, except after the throw of `T`'s swap of a
default-constructed `T`. -/
theorem Storage.swap_restores (scalar : E.isScalar = true → Scalar b) (strong : SwapStrong b)
    (storage : Storage)
    (fits : storage.Fits E) (sound : storage.Sound w) (useDefault : Bool) (hereX : w.flag x ≠ none)
    (hereY : w.flag y ≠ none) :
    (∀ e w', storage.swap E b useDefault x y w = .thrown e w' → w.SameAt w' x ∧ w.SameAt w' y) ↔
      ¬ storage.SwapsDefault b useDefault x y w := by
  cases storage with
  | union =>
    refine iff_of_true ?_ fun throws => nomatch throws.1
    exact implements_restores (Union.swap_implements E b x y) sound
      (document_swap_undone strong hereX hereY sound)
  | aligned => exact Aligned.swap_thrown_iff strong hereX hereY sound useDefault
  | direct =>
    obtain ⟨u, ran, -⟩ := Direct.swap_exchanges b (scalar (fits rfl)) useDefault sound hereX hereY
    refine iff_of_true (fun e w' threw => ?_) fun throws => nomatch throws.1
    exact nomatch ran.symm.trans threw

end Every

def secondEngaged : World Int :=
  (((World.initial fun _ => 1).setFlag (.named 0) (some false)).setFlag (.named 1)
      (some true)).setCell (.named 1) (.live 5)

theorem secondEngaged_consistent : secondEngaged.Consistent := by
  intro o
  by_cases second : o = .named 1
  · simp [second, secondEngaged, World.setCell, World.setFlag, World.value, Cell.value?]
  · simp [second, secondEngaged, World.setCell, World.setFlag, World.value, World.initial, Cell.value?]

theorem secondEngaged_here :
    secondEngaged.flag (.named 0) ≠ none ∧ secondEngaged.flag (.named 1) ≠ none := by decide

def swapThrows : Behaviour Int Unit := intLike fun _ call => match call with
  | .swap .. => some ()
  | _ => none

theorem swapThrows_strong : SwapStrong swapThrows :=
  ⟨fun _ _ => intLike_restores _ _, fun _ _ => intLike_restores _ _⟩

/-- The swap of a default-constructed `T` throws, and the empty optional is left with it. -/
theorem Aligned.swap_keepsDefault :
    ¬ ∀ (b : Behaviour Int Unit) (w : World Int) (x y : ObjId), SwapStrong b → w.Consistent →
      w.flag x ≠ none →
      w.flag y ≠ none → ∀ (useDefault : Bool) (e : Unit)
      (w' : World Int), Aligned.swap b useDefault x y w = .thrown e w' →
      w.SameAt w' x ∧ w.SameAt w' y := by
  intro restores
  obtain ⟨w', threw, engaged⟩ : ∃ w', Aligned.swap swapThrows true (.named 0)
    (.named 1) secondEngaged = .thrown () w' ∧
      w'.flag (.named 0) = some true := ⟨_, rfl, rfl⟩
  have same :=
    (restores _ _ _ _ swapThrows_strong secondEngaged_consistent secondEngaged_here.1 secondEngaged_here.2 true () w' threw).1.1
  rw [engaged] at same
  cases same

/-- The move constructor throws half way through the swap of the union implementation. -/
theorem Storage.swap_restores_union :
    ∃ w' : World Int, Storage.union.swap (.nontrivial Int) (intLike fun _ _ => some ()) false
      (.named 0) (.named 1)
        secondEngaged = .thrown () w' ∧
      secondEngaged.SameAt w' (.named 0) ∧ secondEngaged.SameAt w' (.named 1) := by
  obtain ⟨w', threw⟩ : ∃ w', Storage.union.swap (.nontrivial Int) (intLike fun _ _ => some ()) false
    (.named 0) (.named 1)
      secondEngaged = .thrown () w' := ⟨_, rfl⟩
  have strong : SwapStrong (intLike fun _ _ => some ()) :=
    ⟨fun _ _ => intLike_restores _ _, fun _ _ => intLike_restores _ _⟩
  exact ⟨w', threw, (Storage.swap_restores (E := .nontrivial Int)
    (fun scalar => absurd scalar Bool.false_ne_true) strong .union
    (fun direct => by cases direct) secondEngaged_consistent false
    secondEngaged_here.1 secondEngaged_here.2).mpr (fun throws => nomatch throws.1) () w' threw⟩

end BoostOptional
