import BoostOptional.Safety.Lifetime
import Mathlib.Logic.Equiv.Basic

/-!
The documented swap exchanges the contents of two optionals, whichever of them have a value, and so
does the customized swap that goes through a default-constructed `T`.
-/

namespace BoostOptional
open Effect Prog Memory

variable {α ε : Type}

/-- `T`'s swap exchanges two values, and its move construction and move assignment transfer one. -/
structure Transfers (b : Behaviour α ε) : Prop where
  swap : ∀ trace values x y v u, values x = some v → values y = some u →
    (b trace (.swap x y) values).threw = none →
    (b trace (.swap x y) values).after x = u ∧ (b trace (.swap x y) values).after y = v
  construct : ∀ trace values dst src v, values src = some v →
    (b trace (.construct .direct dst [⟨src, .rvalue, .self⟩]) values).threw = none →
    (b trace (.construct .direct dst [⟨src, .rvalue, .self⟩]) values).result = v
  assign : ∀ trace values dst src v, dst ≠ src → values src = some v →
    (b trace (.assign dst ⟨src, .rvalue, .self⟩) values).threw = none →
    (b trace (.assign dst ⟨src, .rvalue, .self⟩) values).after dst = v

namespace Spec

variable (b : Behaviour α ε) (transfers : Transfers b) {s : State α}

def exchanged (content : ObjId → Option (Option α)) (x y : ObjId) : ObjId → Option (Option α) :=
  content ∘ Equiv.swap x y

theorem exchanged_eq {c d : ObjId → Option (Option α)} {x y : ObjId} (atX : d x = c y) (atY : d y = c x)
    (others : ∀ o, o ≠ x → o ≠ y → d o = c o) : d = exchanged c x y := by
  funext o
  simp only [exchanged, Function.comp_apply]
  by_cases isX : o = x
  · rw [isX, Equiv.swap_apply_left, atX]
  by_cases isY : o = y
  · rw [isY, Equiv.swap_apply_right, atY]
  · rw [Equiv.swap_apply_of_ne_of_ne isX isY, others o isX isY]

theorem exchanged_comm (c : ObjId → Option (Option α)) (x y : ObjId) :
    exchanged c x y = exchanged c y x := by
  rw [exchanged, exchanged, Equiv.swap_comm]

theorem value_of_content {o : ObjId} {v : α} (content : s.content o = some (some v)) :
    value s (.contained o) = some v := by
  change (s.content o).join = some v
  rw [content]
  rfl

theorem update_content (operands : List Loc) (after : Loc → α) (o : ObjId) :
    (update s operands after).content o =
      if .contained o ∈ operands then some (some (after (.contained o))) else s.content o := rfl

include transfers in
theorem invokeSwap_content {x y : ObjId} {v u : α} (hereX : s.content x = some (some v))
    (hereY : s.content y = some (some u)) :
    (invokeSwap b (.contained x) (.contained y) s).Holds
      (fun _ t => t.content = exchanged s.content x y) (fun _ _ => True) := by
  have valueX := value_of_content hereX
  have valueY := value_of_content hereY
  rw [invokeSwap_eq, if_pos (by simp [valueX, valueY])]
  dsimp only
  cases threw : (b (trace s) (.swap (.contained x) (.contained y)) (value s)).threw with
  | some e => trivial
  | none =>
    obtain ⟨atX, atY⟩ := transfers.swap _ _ _ _ _ _ valueX valueY threw
    refine exchanged_eq (c := s.content) ?_ ?_ fun o otherX otherY => ?_
    · change (update s _ _).content x = _
      rw [update_content, if_pos (by simp), atX, hereY]
    · change (update s _ _).content y = _
      rw [update_content, if_pos (by simp), atY, hereX]
    · change (update s _ _).content o = _
      rw [update_content, if_neg (by simp [otherX, otherY])]

theorem create_content {how : Init} {o : ObjId} {args : List Arg} (empty : s.content o = some none)
    (live : ∀ v ∈ args, (value s v.loc).isSome = true) :
    (create b how o args s).Holds (fun _ t =>
        (b (trace s) (.construct how (.contained o) args) (value s)).threw = none ∧
        t.content o = some (some (b (trace s) (.construct how (.contained o) args) (value s)).result) ∧
        ∀ p, p ≠ o → t.content p = if .contained p ∈ args.map Arg.loc then
          some (some ((b (trace s) (.construct how (.contained o) args) (value s)).after
              (.contained p)))
          else s.content p)
      (fun _ t => t.content o = some none) := by
  have vacant : (value s (.contained o)).isSome = false := by
    change (s.content o).join.isSome = false
    rw [empty]
    rfl
  have operands : (args.map Arg.loc).all (fun l => (value s l).isSome) = true := by
    simpa [List.all_eq_true] using live
  simp only [create, empty]
  rw [constructT_eq, if_neg (by simp [vacant]), if_pos operands]
  dsimp only
  cases threw : (b (trace s) (.construct how (.contained o) args) (value s)).threw with
  | none => exact ⟨rfl, if_pos rfl, fun p other => (if_neg other).trans (update_content _ _ _)⟩
  | some e =>
    have untouched : .contained o ∉ args.map Arg.loc := fun member => by
      simp [List.all_eq_true.mp operands _ member] at vacant
    exact (update_content _ _ _).trans ((if_neg untouched).trans empty)

theorem clear_content {o : ObjId} {c : Option α} (here : s.content o = some c)
    {E : ε → State α → Prop} :
    ((clear o : Doc α ε Unit) s).Holds
      (fun _ t => t.content o = some none ∧ ∀ p, p ≠ o → t.content p = s.content p) E := by
  simp only [clear, here]
  cases c with
  | none => exact ⟨here, fun _ _ => rfl⟩
  | some v =>
    rw [destroyT_live (by simp [value_of_content here])]
    exact ⟨if_pos rfl, fun p other => if_neg other⟩

include transfers in
theorem transfer_content {dst src : ObjId} {v : α} (empty : s.content dst = some none)
    (full : s.content src = some (some v)) :
    (transfer b dst src s).Holds (fun _ t => t.content = exchanged s.content dst src)
    (fun _ _ => True) := by
  have apart : src ≠ dst := fun same => by simp [same, empty] at full
  have valueSrc := value_of_content full
  refine holds_andThen ((create_content b empty (by simp [valueSrc])).mono (fun _ _ made => made)
    fun _ _ _ => trivial) fun _ t made => ?_
  obtain ⟨threw, atDst, others⟩ := made
  rw [transfers.construct _ _ _ _ _ valueSrc threw] at atDst
  have atSrc := others src apart
  rw [if_pos (by simp)] at atSrc
  refine (clear_content atSrc).mono (fun _ r cleared => ?_) (fun _ _ done => done)
  refine exchanged_eq (c := s.content) ?_ ?_ fun o otherDst otherSrc => ?_
  · rw [cleared.2 dst apart.symm, atDst, full]
  · rw [cleared.1, empty]
  · rw [cleared.2 o otherSrc, others o otherDst, if_neg (by simp [otherSrc])]

include transfers in
theorem throughDefault_content {dst src x y : ObjId} {v : α} (empty : s.content dst = some none)
    (full : s.content src = some (some v)) (sides : dst = x ∧ src = y ∨ dst = y ∧ src = x) :
    ((do create b .direct dst []; invokeSwap b (.contained x) (.contained y); clear src : Doc α ε Unit) s).Holds
      (fun _ t => t.content = exchanged s.content x y) (fun _ _ => True) := by
  -- The value that was default-constructed in `dst` moves over to `src` and is destroyed there.
  have apart : src ≠ dst := fun same => by simp [same, empty] at full
  refine holds_andThen ((create_content b empty (by simp)).mono (fun _ _ made => made)
    fun _ _ _ => trivial) fun _ t made => ?_
  obtain ⟨-, atDst, others⟩ := made
  have atSrc : t.content src = some (some v) := by rw [others src apart, if_neg (by simp), full]
  have swapped : (invokeSwap b (.contained x) (.contained y) t).Holds
      (fun _ u => u.content = exchanged t.content dst src) (fun _ _ => True) := by
    rcases sides with ⟨rfl, rfl⟩ | ⟨rfl, rfl⟩
    · exact invokeSwap_content b transfers atDst atSrc
    · rw [exchanged_comm]
      exact invokeSwap_content b transfers atSrc atDst
  refine holds_andThen swapped fun _ u exchange => ?_
  have thenSrc := atDst
  rw [show t.content dst = u.content src by
    rw [exchange, exchanged, Function.comp_apply, Equiv.swap_apply_right]] at thenSrc
  refine (clear_content thenSrc).mono (fun _ r cleared => ?_) (fun _ _ done => done)
  have result : r.content = exchanged s.content dst src := by
    refine exchanged_eq (c := s.content) ?_ ?_ fun o otherDst otherSrc => ?_
    · rw [cleared.2 dst apart.symm, exchange, exchanged, Function.comp_apply, Equiv.swap_apply_left,
        atSrc, full]
    · rw [cleared.1, empty]
    · rw [cleared.2 o otherSrc, exchange, exchanged, Function.comp_apply,
        Equiv.swap_apply_of_ne_of_ne otherDst otherSrc, others o otherDst, if_neg (by simp)]
  rcases sides with ⟨rfl, rfl⟩ | ⟨rfl, rfl⟩
  · exact result
  · rw [result, exchanged_comm]

theorem exchanged_empty {content : ObjId → Option (Option α)} {x y : ObjId}
    (same : content x = content y) :
    content = exchanged content x y :=
  exchanged_eq same same.symm fun _ _ _ => rfl

include transfers in
theorem swap_content {x y : ObjId} {c d : Option α} (hereX : s.content x = some c)
    (hereY : s.content y = some d) :
    (swap b x y s).Holds (fun _ t => t.content = exchanged s.content x y) (fun _ _ => True) := by
  rw [swap_eq b (engaged_content hereX) (engaged_content hereY)]
  cases c with
  | none =>
    cases d with
    | none => exact exchanged_empty (hereX.trans hereY.symm)
    | some u => exact transfer_content b transfers hereX hereY
  | some v =>
    cases d with
    | none =>
      rw [exchanged_comm]
      exact transfer_content b transfers hereY hereX
    | some u => exact invokeSwap_content b transfers hereX hereY

include transfers in
theorem swapDefault_content {x y : ObjId} {c d : Option α} (hereX : s.content x = some c)
    (hereY : s.content y = some d) :
    (swapDefault b x y s).Holds (fun _ t => t.content = exchanged s.content x y) (fun _ _ => True) := by
  rw [swapDefault_eq b (engaged_content hereX) (engaged_content hereY)]
  cases c with
  | none =>
    cases d with
    | none => exact exchanged_empty (hereX.trans hereY.symm)
    | some u => exact throughDefault_content b transfers hereX hereY (.inl ⟨rfl, rfl⟩)
  | some v =>
    cases d with
    | none => exact throughDefault_content b transfers hereY hereX (.inr ⟨rfl, rfl⟩)
    | some u => exact invokeSwap_content b transfers hereX hereY

/-! ### The exchange through a temporary -/

/-- Moving a value out leaves the optional with some value, or still without one. -/
def Drained (content content' : ObjId → Option (Option α)) (o : ObjId) : Prop :=
  ∃ c c', content o = some c ∧ content' o = some c' ∧ c'.isSome = c.isSome

include transfers in
theorem assignMove_content {this rhs : ObjId} {c d : Option α} (apart : rhs ≠ this)
    (here : s.content this = some c) (there : s.content rhs = some d) :
    (assignFrom b .forwarded this (engaged rhs) ⟨.contained rhs, .rvalue, .self⟩ s).Holds
      (fun _ t => t.content this = some d ∧ Drained s.content t.content rhs ∧
        ∀ o, o ≠ this → o ≠ rhs → t.content o = s.content o) (fun _ _ => True) := by
  simp only [assignFrom, bind_apply, andThen, engaged, here]
  cases c with
  | none =>
    simp only [Option.isSome_none, Bool.false_eq_true, if_false, bind_apply, andThen, engaged, there]
    cases d with
    | none => exact ⟨here, ⟨_, _, there, there, rfl⟩, fun _ _ _ => rfl⟩
    | some u =>
      have valueRhs := value_of_content there
      refine (create_content b here (by simp [valueRhs])).mono (fun _ t made => ?_)
        (fun _ _ _ => trivial)
      obtain ⟨threw, atThis, others⟩ := made
      rw [transfers.construct _ _ _ _ _ valueRhs threw] at atThis
      refine ⟨atThis, ⟨_, _, there, (others rhs apart).trans (if_pos (by simp)), rfl⟩,
        fun o otherThis otherRhs => ?_⟩
      rw [others o otherThis, if_neg (by simp [otherRhs])]
  | some v =>
    simp only [Option.isSome_some, if_true, bind_apply, andThen, engaged, there]
    cases d with
    | none =>
      refine (clear_content here).mono (fun _ t cleared => ?_) (fun _ _ done => done)
      exact ⟨cleared.1, ⟨_, _, there, (cleared.2 rhs apart).trans there, rfl⟩, fun o other _ =>
        cleared.2 o other⟩
    | some u =>
      have valueThis := value_of_content here
      have valueRhs := value_of_content there
      simp only [Option.isSome_some, if_true, updateFrom, pass, assign]
      rw [assignT_eq, if_pos (by simp [valueThis, valueRhs])]
      dsimp only
      cases threw : (b (trace s) (.assign (.contained this) ⟨.contained rhs, .rvalue, .self⟩) (value s)).threw with
      | some e => trivial
      | none =>
        have moved :=
          transfers.assign _ _ (.contained this) _ _ (by simpa using apart.symm) valueRhs threw
        refine ⟨(update_content _ _ _).trans ?_,
          ⟨_, _, there, (update_content _ _ _).trans (if_pos (by simp)), rfl⟩,
          fun o otherThis otherRhs => (update_content _ _ _).trans
            (if_neg (by simp [otherThis, otherRhs]))⟩
        rw [if_pos (by simp), moved]

include transfers in
theorem newMove_content {o rhs : ObjId} {d : Option α} (absent : s.content o = none)
    (there : s.content rhs = some d) :
    (newFrom b .forwarded o (engaged rhs) ⟨.contained rhs, .rvalue, .self⟩ s).Holds
      (fun _ t => t.content o = some d ∧ Drained s.content t.content rhs ∧
        ∀ p, p ≠ o → p ≠ rhs → t.content p = s.content p) (fun _ _ => True) := by
  have apart : rhs ≠ o := fun same => by simp [same, absent] at there
  rw [newFrom_eq b _ _ apart there]
  have fresh : (s.setContent o (some none)).content o = some none := if_pos rfl
  have old : ∀ p, p ≠ o → (s.setContent o (some none)).content p = s.content p :=
    fun p other => if_neg other
  have rhsOld : (s.setContent o (some none)).content rhs = some d := (old rhs apart).trans there
  simp only [newOptional, bind_apply, andThen, appear, absent]
  cases d with
  | none => exact ⟨fresh, ⟨_, _, there, rhsOld, rfl⟩, fun p other _ => old p other⟩
  | some u =>
    have valueRhs := value_of_content rhsOld
    refine Outcome.Holds.mono (E := fun _ _ => True)
      (holds_onThrow (create_content b fresh (by simp [valueRhs]))
      fun e t emptied => ?_) (fun _ t made => ?_) (fun _ _ done => done)
    · simp only [vanish, emptied]
      trivial
    · obtain ⟨threw, atO, others⟩ := made
      rw [transfers.construct _ _ _ _ _ valueRhs threw] at atO
      refine ⟨atO, ⟨_, _, there, (others rhs apart).trans (if_pos (by simp)), rfl⟩,
        fun p otherO otherRhs => ?_⟩
      rw [others p otherO, if_neg (by simp [otherRhs]), old p otherO]

/-- `T tmp = move(x); x = move(y); y = move(tmp);`, and then `tmp` is destroyed. -/
def moveExchange (tmp x y : ObjId) : Doc α ε Unit := do
  newFrom b .forwarded tmp (engaged x) ⟨.contained x, .rvalue, .self⟩
  assignFrom b .forwarded x (engaged y) ⟨.contained y, .rvalue, .self⟩
  assignFrom b .forwarded y (engaged tmp) ⟨.contained tmp, .rvalue, .self⟩
  destroy tmp

include transfers in
theorem moveExchange_content {tmp x y : ObjId} {c d : Option α} (apart : x ≠ y)
    (absent : s.content tmp = none)
    (hereX : s.content x = some c) (hereY : s.content y = some d) :
    (moveExchange b tmp x y s).Holds (fun _ t => t.content = exchanged s.content x y)
    (fun _ _ => True) := by
  have tmpX : x ≠ tmp := fun same => by simp [← same, hereX] at absent
  have tmpY : y ≠ tmp := fun same => by simp [← same, hereY] at absent
  refine holds_andThen (newMove_content b transfers absent hereX) fun _ t built => ?_
  obtain ⟨builtTmp, ⟨_, c', _, builtX, _⟩, builtRest⟩ := built
  have builtY : t.content y = some d := (builtRest y tmpY apart.symm).trans hereY
  refine holds_andThen (assignMove_content b transfers apart.symm builtX builtY) fun _ u moved => ?_
  obtain ⟨movedX, ⟨_, d', _, movedY, _⟩, movedRest⟩ := moved
  have movedTmp : u.content tmp = some c := (movedRest tmp tmpX.symm tmpY.symm).trans builtTmp
  refine holds_andThen (assignMove_content b transfers tmpY.symm movedY movedTmp) fun _ r back => ?_
  obtain ⟨backY, ⟨_, c'', _, backTmp, _⟩, backRest⟩ := back
  refine holds_andThen (clear_content backTmp) fun _ q cleared => ?_
  simp only [vanish, cleared.1]
  have gone : ∀ o, o ≠ tmp → (q.setContent tmp none).content o = r.content o := fun o other =>
    (if_neg other).trans (cleared.2 o other)
  refine exchanged_eq (c := s.content) ?_ ?_ fun o otherX otherY => ?_
  · rw [gone x tmpX, backRest x apart tmpX, movedX, hereY]
  · rw [gone y tmpY, backY, hereX]
  · by_cases isTmp : o = tmp
    · rw [isTmp, absent]
      exact if_pos rfl
    · rw [gone o isTmp, backRest o otherY isTmp, movedRest o otherX otherY, builtRest o isTmp otherX]

end Spec

end BoostOptional
