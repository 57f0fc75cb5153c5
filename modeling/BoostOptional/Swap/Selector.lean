import BoostOptional.Aligned

/-!
The two `swap_selector`s by what the flags tell. Once the flags of both operands are known, each is
one of four programs.
-/

namespace BoostOptional
open Effect Prog

variable {α ε : Type} {w : World α} {x y : ObjId} {b : Behaviour α ε} (ops : LegacyOps α ε)

theorem getLoc_full (full : w.flag x = some true) :
    (getLoc x : Code α ε Loc) w = .ok (.contained x) w := by
  rw [getLoc, bind_apply, andThen_ok (isInitialized_eq full)]
  rfl

/-- Swapping two values, and then `rest`. -/
def swapValues (b : Behaviour α ε) (x y : ObjId) (rest : Code α ε Unit) : Code α ε Unit := do
  let l ← getLoc x
  let r ← getLoc y
  invokeSwap b l r
  rest

theorem swapValues_eq (rest : Code α ε Unit) (fullX : w.flag x = some true)
    (fullY : w.flag y = some true) :
    swapValues b x y rest w = (do invokeSwap b (.contained x) (.contained y); rest) w := by
  rw [swapValues, bind_apply, andThen_ok (getLoc_full fullX), bind_apply,
    andThen_ok (getLoc_full fullY)]

/-- The values of `x` and `y` right after `T`'s swap was called, whether it returns or throws. -/
def swapCalled (b : Behaviour α ε) (x y : ObjId) (w : World α) : World α :=
  let call := Call.swap (.contained x) (.contained y)
  Memory.log (Memory.update w [.contained x, .contained y] (b w.trace call w.value).after) call

theorem swapValues_called (rest : Code α ε Unit) (fullX : w.flag x = some true)
    (fullY : w.flag y = some true)
    (liveX : (w.value (.contained x)).isSome = true) (liveY : (w.value (.contained y)).isSome = true) :
    swapValues b x y rest w =
      match (b w.trace (.swap (.contained x) (.contained y)) w.value).threw with
      | some e => .thrown e (swapCalled b x y w)
      | none => rest (swapCalled b x y w) := by
  rw [swapValues_eq rest fullX fullY, bind_apply]
  cases threw : (b w.trace (.swap (.contained x) (.contained y)) w.value).threw with
  | some e => exact andThen_thrown (invokeSwap_throws liveX liveY threw) _
  | none => exact andThen_ok (invokeSwap_returns liveX liveY threw) _

/-- `optional_swap` when not both have a value. -/
def moveAcross (dst src : ObjId) : Code α ε Unit := do
  ops.assignFromT dst ⟨.contained src, .rvalue, .self⟩
  ops.assignNone src

theorem optionalSwapMove_eq {hasX hasY : Bool} (flagX : w.flag x = some hasX)
    (flagY : w.flag y = some hasY) :
    optionalSwapMove b ops x y w =
      match hasX, hasY with
      | true, true => invokeSwap b (.contained x) (.contained y) w
      | true, false => moveAcross ops y x w
      | false, true => moveAcross ops x y w
      | false, false => .ok () w := by
  rw [optionalSwapMove, bind_apply, andThen_ok (isInitialized_eq flagX)]
  cases hasX with
  | true =>
    simp only [if_true]
    rw [bind_apply, andThen_ok (isInitialized_eq flagY)]
    cases hasY with
    | true =>
      simp only [if_true]
      rw [bind_apply, andThen_ok (getLoc_full flagX), bind_apply, andThen_ok (getLoc_full flagY)]
    | false =>
      simp only [Bool.false_eq_true, if_false]
      rw [bind_apply, andThen_ok (getLoc_full flagX)]
      rfl
  | false =>
    simp only [Bool.false_eq_true, if_false]
    rw [bind_apply, andThen_ok (isInitialized_eq flagY)]
    cases hasY with
    | true =>
      simp only [if_true]
      rw [bind_apply, andThen_ok (getLoc_full flagY)]
      rfl
    | false => rfl

theorem optionalSwapDefault_eq {hasX hasY : Bool} (flagX : w.flag x = some hasX)
    (flagY : w.flag y = some hasY) :
    optionalSwapDefault b ops x y w =
      match hasX, hasY with
      | true, true => invokeSwap b (.contained x) (.contained y) w
      | true, false => (do ops.emplace y []; swapValues b x y (ops.assignNone x) : Code α ε Unit) w
      | false, true => (do ops.emplace x []; swapValues b x y (ops.assignNone y) : Code α ε Unit) w
      | false, false => .ok () w := by
  rw [optionalSwapDefault, bind_apply, andThen_ok (isInitialized_eq flagX), bind_apply,
    andThen_ok (isInitialized_eq flagY)]
  cases hasX with
  | true =>
    cases hasY with
    | true =>
      have both := swapValues_eq (b := b) (pure ()) flagX flagY
      rw [bind_return] at both
      exact both
    | false => rfl
  | false => cases hasY <;> rfl

end BoostOptional
