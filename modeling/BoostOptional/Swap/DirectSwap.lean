import BoostOptional.Swap.Transposition
import BoostOptional.Swap.Selector
import BoostOptional.Direct

/-!
The swaps of `optional_swap.hpp` over direct storage exchange the contents of two optionals, as the
flags tell them. What the storage holds behind a flag that is not set does not matter.
-/

namespace BoostOptional
open Effect Prog Memory

variable {α ε : Type}

/-- What each optional holds, as its flag tells it. -/
def World.contents (w : World α) (o : ObjId) : Option (Option α) :=
  (w.flag o).map fun init => if init then w.value (.contained o) else none

theorem Represents.contents_eq {w : World α} {s : Spec.State α} (rep : Represents w s) :
    w.contents = s.content := by
  funext o
  have flag := rep.flag o
  have cell := rep.cell o
  simp only [World.contents, World.value, flag, cell]
  cases s.content o with
  | none => rfl
  | some c => cases c <;> rfl

/-! ### Direct storage -/

namespace Direct

variable (b : Behaviour α ε) (scalar : Scalar b) {w : World α}

/-- A flag that is set tells that the storage holds a value. -/
structure Sound (w : World α) : Prop where
  held : ∀ o, w.flag o = some true → (w.value (.contained o)).isSome = true
  scratch : w.scratch = none

structure Writes (o : ObjId) (c : Option α) (w w' : World α) : Prop where
  here : w'.contents o = some c
  others : ∀ p, p ≠ o → w'.contents p = w.contents p
  sound : Sound w'

theorem contents_full (sound : Sound w) {o : ObjId} (flag : w.flag o = some true) :
    ∃ v, w.value (.contained o) = some v ∧ w.contents o = some (some v) := by
  obtain ⟨v, value⟩ := Option.isSome_iff_exists.mp (sound.held o flag)
  exact ⟨v, value, by simp [World.contents, flag, value]⟩

theorem contents_empty {o : ObjId} (flag : w.flag o = some false) : w.contents o = some none := by
  simp [World.contents, flag]

theorem flag_of_contents {o : ObjId} {v : α} (full : w.contents o = some (some v)) :
    w.flag o = some true ∧ w.value (.contained o) = some v := by
  cases flag : w.flag o with
  | none => simp [World.contents, flag] at full
  | some init => cases init <;> simp_all [World.contents]

theorem writes_of {o : ObjId} {c : Option α} {w' : World α} (sound : Sound w)
    (flag : w'.flag o = some c.isSome)
    (flags : ∀ p, p ≠ o → w'.flag p = w.flag p) (held : c.isSome = true → w'.value (.contained o) = c)
    (values : ∀ p, p ≠ o → w'.value (.contained p) = w.value (.contained p))
    (scratch : w'.scratch = none) :
    Writes o c w w' := by
  refine ⟨?_, fun p other => ?_, fun p flagged => ?_, scratch⟩
  · cases c with
    | none => exact contents_empty flag
    | some v => simp [World.contents, flag, held rfl]
  · rw [World.contents, World.contents, flags p other, values p other]
  · by_cases isO : p = o
    · subst isO
      rw [flag] at flagged
      have full : c.isSome = true := by simpa using flagged
      rw [held full, full]
    · rw [values p isO]
      exact sound.held p (by rw [← flags p isO, flagged])

include scalar in
theorem assignStorage_ok {o : ObjId} {v : Arg} {x : α} (own : v.ty = .self)
    (held : w.value v.loc = some x) :
    ∃ w', assignStorage b o v w = .ok () w' ∧ w'.flag = w.flag ∧ w'.value (.contained o) = some x ∧
      ∀ l, l ≠ .contained o → w'.value l = w.value l := by
  obtain ⟨quiet, atDst, atSrc⟩ := scalar.assign w.trace w.value (.contained o) v x own held
  have values := World.update_value w [.contained o, v.loc]
    (b w.trace (.assign (.contained o) v) w.value).after
  refine ⟨log (w.update [.contained o, v.loc] (b w.trace (.assign (.contained o) v) w.value).after)
    (.assign (.contained o) v), ?_, rfl, ?_, fun l other => ?_⟩
  · simp only [assignStorage, held, Option.isSome_some, if_true, settle, quiet]
    rfl
  · exact (values _).trans ((if_pos (by simp)).trans (congrArg some atDst))
  · by_cases source : l = v.loc
    · rw [source, held]
      exact (values _).trans ((if_pos (by simp)).trans (congrArg some atSrc))
    · exact (values l).trans (if_neg (by simp [other, source]))

include scalar in
theorem assignFromT_writes {o r : ObjId} (cat : Cat) {v : α} (sound : Sound w)
    (held : w.value (.contained r) = some v) :
    ∃ w', assignFromT b o ⟨.contained r, cat, .self⟩ w = .ok () w' ∧ Writes o (some v) w w' := by
  obtain ⟨u, ran, flags, here, others⟩ := assignStorage_ok b scalar (o := o)
    (v := ⟨.contained r, .constLvalue, .self⟩) rfl held
  refine ⟨u.setFlag o (some true), ?_, writes_of sound (if_pos rfl) (fun p other => ?_) (fun _ => here)
    (fun p other => others (.contained p) (by simpa using other))
      ((others .scratch nofun).trans sound.scratch)⟩
  · simp only [assignFromT, assign, construct, bindParam, bind_apply]
    rw [andThen_ok ran]
    rfl
  · exact (if_neg other).trans (congrFun flags p)

theorem destroy_writes {o : ObjId} (sound : Sound w) :
    ∃ w', (destroy o : Code α ε Unit) w = .ok () w' ∧ Writes o none w w' :=
  ⟨w.setFlag o (some false), rfl, writes_of sound (if_pos rfl) (fun _ other => if_neg other) nofun
    (fun _ _ => rfl) sound.scratch⟩

include scalar in
theorem emplace_writes {o : ObjId} (sound : Sound w) :
    ∃ w' v, emplace b o [] w = .ok () w' ∧ Writes o (some v) w w' := by
  have quiet := scalar.initial w.trace w.value .scratch
  have made : constructT b .direct .scratch [] w =
      .ok () { log w (.construct .direct .scratch []) with
        scratch := some (b w.trace (.construct .direct .scratch []) w.value).result } := by
    exact constructT_returns sound.scratch rfl quiet
  obtain ⟨u, ran, flags, here, others⟩ := assignStorage_ok b scalar (o := o)
    (v := ⟨.scratch, .rvalue, .self⟩)
    (w := { log w (.construct .direct .scratch []) with
      scratch := some (b w.trace (.construct .direct .scratch []) w.value).result }) rfl rfl
  have there : (value u .scratch).isSome = true := by
    rw [show value u .scratch = _ from others .scratch nofun]
    rfl
  refine ⟨(log (vacate u .scratch) (.destroy .scratch)).setFlag o (some true), _, ?_,
    writes_of sound (if_pos rfl)
    (fun p other => (if_neg other).trans (congrFun flags p)) (fun _ => here)
    (fun p other => others (.contained p) (by simpa using other)) rfl⟩
  simp only [emplace, emplaceAssign, constructInPlace, assignPrvalue, bind_apply, andThen, made,
    bracket, onThrow,
    ran, destroyT_live there]
  rfl

include scalar in
theorem invokeSwap_exchanges {x y : ObjId} {v u : α} (sound : Sound w)
    (fullX : w.contents x = some (some v))
    (fullY : w.contents y = some (some u)) :
    ∃ w', invokeSwap b (.contained x) (.contained y) w = .ok () w' ∧ Sound w' ∧
      w'.contents = Spec.exchanged w.contents x y := by
  obtain ⟨flagX, valueX⟩ := flag_of_contents fullX
  obtain ⟨flagY, valueY⟩ := flag_of_contents fullY
  obtain ⟨quiet, atX, atY⟩ := scalar.swap w.trace w.value _ _ _ _ valueX valueY
  have values : ∀ l, World.value (log (w.update [.contained x, .contained y]
      (b w.trace (.swap (.contained x) (.contained y)) w.value).after)
      (.swap (.contained x) (.contained y))) l = _ :=
    fun l => (World.log_value _ _ l).trans (World.update_value w _ _ l)
  refine ⟨log (w.update [.contained x, .contained y]
      (b w.trace (.swap (.contained x) (.contained y)) w.value).after)
    (.swap (.contained x) (.contained y)), ?_, ⟨fun p flagged => ?_, sound.scratch⟩, ?_⟩
  · exact invokeSwap_returns (congrArg Option.isSome valueX) (congrArg Option.isSome valueY) quiet
  · rw [values]
    split
    · rfl
    · exact sound.held p flagged
  · refine Spec.exchanged_eq (c := w.contents) ?_ ?_ fun o otherX otherY => ?_
    · rw [World.contents, values, if_pos (by simp), atX, fullY]
      exact congrArg (Option.map _) flagX
    · rw [World.contents, values, if_pos (by simp), atY, fullX]
      exact congrArg (Option.map _) flagY
    · rw [World.contents, values, if_neg (by simp [otherX, otherY])]
      rfl

/-! ### swap_selector -/

/-- The contents of `x` and `y` are exchanged. -/
def Exchanges (b : Behaviour α ε) (useDefault : Bool) (x y : ObjId) (w : World α) : Prop :=
  ∃ w', swap b useDefault x y w = .ok () w' ∧ Sound w' ∧ w'.contents = Spec.exchanged w.contents x y

include scalar in
theorem moveAcross_exchanges {dst src : ObjId} {v : α} (sound : Sound w)
    (full : w.contents src = some (some v))
    (empty : w.flag dst = some false) :
    ∃ w', moveAcross (legacyOps b) dst src w = .ok () w' ∧ Sound w' ∧
      w'.contents = Spec.exchanged w.contents dst src := by
  have apart : src ≠ dst := fun same => by rw [same, contents_empty empty] at full; cases full
  obtain ⟨u, moved, written⟩ :=
    assignFromT_writes b scalar (o := dst) .rvalue sound (flag_of_contents full).2
  obtain ⟨w', cleared, emptied⟩ := destroy_writes (ε := ε) (o := src) written.sound
  refine ⟨w', (andThen_ok moved _).trans cleared, emptied.sound,
    Spec.exchanged_eq (c := w.contents) ?_ ?_ fun o otherDst otherSrc => ?_⟩
  · rw [emptied.others dst apart.symm, written.here, full]
  · rw [emptied.here, contents_empty empty]
  · rw [emptied.others o otherSrc, written.others o otherDst]

include scalar in
theorem optionalSwapMove_exchanges {x y : ObjId} (sound : Sound w) (hereX : w.flag x ≠ none)
    (hereY : w.flag y ≠ none) :
    Exchanges b false x y w := by
  obtain ⟨hasX, flagX⟩ := Option.ne_none_iff_exists'.mp hereX
  obtain ⟨hasY, flagY⟩ := Option.ne_none_iff_exists'.mp hereY
  unfold Exchanges swap legacySwap
  simp only [Bool.false_eq_true, if_false]
  rw [optionalSwapMove_eq _ flagX flagY]
  cases hasX with
  | true =>
    obtain ⟨v, -, fullX⟩ := contents_full sound flagX
    cases hasY with
    | true =>
      obtain ⟨u, -, fullY⟩ := contents_full sound flagY
      exact invokeSwap_exchanges b scalar sound fullX fullY
    | false =>
      rw [Spec.exchanged_comm]
      exact moveAcross_exchanges b scalar sound fullX flagY
  | false =>
    cases hasY with
    | true =>
      obtain ⟨u, -, fullY⟩ := contents_full sound flagY
      exact moveAcross_exchanges b scalar sound fullY flagX
    | false =>
      exact ⟨w, rfl, sound, Spec.exchanged_empty (by rw [contents_empty flagX, contents_empty flagY])⟩

include scalar in
theorem throughDefault_exchanges {dst src x y : ObjId} {v : α} (sound : Sound w)
    (full : w.contents src = some (some v)) (empty : w.flag dst = some false)
    (sides : dst = x ∧ src = y ∨ dst = y ∧ src = x) :
    ∃ w', (do emplace b dst []; swapValues b x y (destroy src) : Code α ε Unit) w = .ok () w' ∧ Sound w' ∧
      w'.contents = Spec.exchanged w.contents x y := by
  have apart : src ≠ dst := fun same => by rw [same, contents_empty empty] at full; cases full
  obtain ⟨u, d, emplaced, written⟩ := emplace_writes b scalar (o := dst) sound
  have fullSrc : u.contents src = some (some v) := by rw [written.others src apart, full]
  have full' : ∃ c d, u.contents x = some (some c) ∧ u.contents y = some (some d) := by
    rcases sides with ⟨rfl, rfl⟩ | ⟨rfl, rfl⟩
    · exact ⟨_, _, written.here, fullSrc⟩
    · exact ⟨_, _, fullSrc, written.here⟩
  obtain ⟨c, c', fullX, fullY⟩ := full'
  obtain ⟨r, swapped, soundR, exchange⟩ := invokeSwap_exchanges b scalar written.sound fullX fullY
  obtain ⟨w', cleared, emptied⟩ := destroy_writes (ε := ε) (o := src) soundR
  refine ⟨w', ?_, emptied.sound, ?_⟩
  · rw [bind_apply, andThen_ok emplaced,
      swapValues_eq _ (flag_of_contents fullX).1 (flag_of_contents fullY).1, bind_apply,
      andThen_ok swapped]
    exact cleared
  · have exchange' : r.contents = Spec.exchanged u.contents dst src := by
      rcases sides with ⟨rfl, rfl⟩ | ⟨rfl, rfl⟩
      · exact exchange
      · rw [exchange, Spec.exchanged_comm]
    have result : w'.contents = Spec.exchanged w.contents dst src := by
      refine Spec.exchanged_eq (c := w.contents) ?_ ?_ fun o otherDst otherSrc => ?_
      · rw [emptied.others dst apart.symm, exchange', Spec.exchanged, Function.comp_apply,
          Equiv.swap_apply_left,
          fullSrc, full]
      · rw [emptied.here, contents_empty empty]
      · rw [emptied.others o otherSrc, exchange', Spec.exchanged, Function.comp_apply,
          Equiv.swap_apply_of_ne_of_ne otherDst otherSrc, written.others o otherDst]
    rcases sides with ⟨rfl, rfl⟩ | ⟨rfl, rfl⟩
    · exact result
    · rw [result, Spec.exchanged_comm]

include scalar in
theorem optionalSwapDefault_exchanges {x y : ObjId} (sound : Sound w) (hereX : w.flag x ≠ none)
    (hereY : w.flag y ≠ none) : Exchanges b true x y w := by
  obtain ⟨hasX, flagX⟩ := Option.ne_none_iff_exists'.mp hereX
  obtain ⟨hasY, flagY⟩ := Option.ne_none_iff_exists'.mp hereY
  unfold Exchanges swap legacySwap
  simp only [if_true]
  rw [optionalSwapDefault_eq _ flagX flagY]
  cases hasX with
  | true =>
    obtain ⟨v, -, fullX⟩ := contents_full sound flagX
    cases hasY with
    | true =>
      obtain ⟨u, -, fullY⟩ := contents_full sound flagY
      exact invokeSwap_exchanges b scalar sound fullX fullY
    | false => exact throughDefault_exchanges b scalar sound fullX flagY (.inr ⟨rfl, rfl⟩)
  | false =>
    cases hasY with
    | true =>
      obtain ⟨u, -, fullY⟩ := contents_full sound flagY
      exact throughDefault_exchanges b scalar sound fullY flagX (.inl ⟨rfl, rfl⟩)
    | false =>
      exact ⟨w, rfl, sound, Spec.exchanged_empty (by rw [contents_empty flagX, contents_empty flagY])⟩

include scalar in
theorem swap_exchanges (useDefault : Bool) {x y : ObjId} (sound : Sound w) (hereX : w.flag x ≠ none)
    (hereY : w.flag y ≠ none) : Exchanges b useDefault x y w := by
  cases useDefault with
  | false => exact optionalSwapMove_exchanges b scalar sound hereX hereY
  | true => exact optionalSwapDefault_exchanges b scalar sound hereX hereY

end Direct

end BoostOptional
