import BoostOptional.Spec

/-!
Both implementations refine the documented optional. `Represents` reads a state of the
implementation as a state of the document; on related states each function of the source does
what the entry of the document does, for every behaviour of `T`.
-/

namespace BoostOptional
open Effect Prog Memory

variable {α ε : Type}

/-- The flag tells whether there is a value, and the storage holds it. -/
structure Represents (w : World α) (s : Spec.State α) : Prop where
  flag : ∀ o, w.flag o = (s.content o).map Option.isSome
  cell : ∀ o, (w.cell o).value? = (s.content o).join
  var : w.var = s.var
  scratch : w.scratch = s.scratch
  trace : w.trace = s.trace

namespace Represents

variable {w : World α} {s : Spec.State α}

theorem value_eq (rep : Represents w s) : value w = value s := by
  funext l
  cases l with
  | contained o => exact rep.cell o
  | var x => exact congrArg (fun f => some (f x)) rep.var
  | scratch => exact rep.scratch

theorem log (rep : Represents w s) (c : Call) : Represents (log w c) (log s c) :=
  ⟨rep.flag, rep.cell, rep.var, rep.scratch, congrArg (c :: ·) rep.trace⟩

theorem update (rep : Represents w s) {operands : List Loc}
    (live : ∀ l ∈ operands, (value s l).isSome = true) (after : Loc → α) :
    Represents (update w operands after) (update s operands after) := by
  refine ⟨fun o => ?_, fun o => ?_, ?_, ?_, rep.trace⟩ <;>
    simp only [Memory.update, World.update, Spec.State.update]
  · split
    · rename_i member
      have held : (s.content o).join.isSome = true := live _ member
      rw [rep.flag o]
      cases h : s.content o with
      | none => simp [h] at held
      | some c => cases c <;> simp_all
    · exact rep.flag o
  · split
    · rfl
    · exact rep.cell o
  · rw [rep.var]
  · rw [rep.scratch]

theorem setContent (rep : Represents w s) (o : ObjId) (cell : Cell α) (c : Option α)
    (held : cell.value? = c) :
    Represents ((w.setCell o cell).setFlag o (some c.isSome)) (s.setContent o (some c)) := by
  refine ⟨fun p => ?_, fun p => ?_, rep.var, rep.scratch, rep.trace⟩
  · change (if p = o then _ else w.flag p) = Option.map _ (if p = o then _ else s.content p)
    split
    · rfl
    · exact rep.flag p
  · change Cell.value? (if p = o then _ else w.cell p) = Option.join (if p = o then _ else s.content p)
    split
    · exact held
    · exact rep.cell p

theorem setFlag_none (rep : Represents w s) {o : ObjId} (empty : (w.cell o).value? = none) :
    Represents (w.setFlag o none) (s.setContent o none) := by
  refine ⟨fun p => ?_, fun p => ?_, rep.var, rep.scratch, rep.trace⟩
  · change (if p = o then _ else w.flag p) = Option.map _ (if p = o then _ else s.content p)
    split
    · rfl
    · exact rep.flag p
  · change Cell.value? (w.cell p) = Option.join (if p = o then _ else s.content p)
    split
    · rename_i same
      subst same
      exact empty
    · exact rep.cell p

theorem flag_of_content (rep : Represents w s) {o : ObjId} {c : Option α}
    (content : s.content o = some c) : w.flag o = some c.isSome := by
  rw [rep.flag o, content]
  rfl

theorem cell_of_content (rep : Represents w s) {o : ObjId} {c : Option α}
    (content : s.content o = some c) : (w.cell o).value? = c := by
  rw [rep.cell o, content]
  rfl

theorem consistent (rep : Represents w s) : w.Consistent := by
  intro o
  change (w.cell o).value?.isSome = true ↔ _
  rw [rep.flag o, rep.cell o]
  cases s.content o with
  | none => simp
  | some c => cases c <;> simp

end Represents

/-- A world whose flags are right is represented by what it holds. -/
def World.document (w : World α) : Spec.State α where
  content o := (w.flag o).map fun _ => (w.cell o).value?
  var := w.var
  scratch := w.scratch
  trace := w.trace

theorem consistent_represents {w : World α} (consistent : w.Consistent) : Represents w w.document := by
  refine ⟨fun o => ?_, fun o => ?_, rfl, rfl, rfl⟩
  · have flagged := consistent o
    change ((w.cell o).value?.isSome = true ↔ _) at flagged
    simp only [World.document, Option.map_map]
    cases flag : w.flag o with
    | none => rfl
    | some init => cases init <;> simp_all
  · have flagged := consistent o
    change ((w.cell o).value?.isSome = true ↔ _) at flagged
    simp only [World.document]
    cases flag : w.flag o with
    | none => simpa [flag] using flagged
    | some init => rfl

/-! ### T's operations -/

variable (b : Behaviour α ε)

abbrev Implements {β : Type} (c : Code α ε β) (a : Spec.Doc α ε β) : Prop := Refines Represents c a

theorem userCall_implements (c : Call) : Implements (ε := ε) (userCall b c) (userCall b c) := by
  intro w s rep
  simp only [userCall, rep.value_eq]
  split
  · rename_i live
    have operands : ∀ l ∈ c.operands, (value s l).isSome = true := List.all_eq_true.mp live
    change _ = _ ∧ _
    have same : trace w = trace s := rep.trace
    rw [same]
    exact ⟨rfl, (rep.update operands _).log c⟩
  · exact match_fault _ _

theorem settle_implements (reply : Reply α ε) : Implements (α := α) (settle reply) (settle reply) := by
  intro w s rep
  unfold settle
  cases reply.threw with
  | none => exact ⟨rfl, rep⟩
  | some e => exact ⟨rfl, rep⟩

theorem assignT_implements (dst : Loc) (src : Arg) :
    Implements (assignT b dst src) (assignT b dst src) :=
  refines_bind (userCall_implements b _) fun reply => settle_implements reply

theorem invokeSwap_implements (x y : Loc) : Implements (invokeSwap b x y) (invokeSwap b x y) :=
  refines_bind (userCall_implements b _) fun reply => settle_implements reply

theorem vacant_implements (dst : Loc) :
    Implements (ε := ε) (vacant dst : Code α ε Unit) (vacant dst) := by
  intro w s rep
  simp only [vacant, rep.value_eq]
  split
  · exact match_fault _ _
  · exact ⟨rfl, rep⟩

theorem constructScratch_implements (how : Init) (args : List Arg) :
    Implements (constructT b how .scratch args) (constructT b how .scratch args) := by
  refine refines_bind (vacant_implements _) fun _ => refines_bind (userCall_implements b _) fun reply =>
    refines_bind (settle_implements reply) fun _ => ?_
  intro w s rep
  exact ⟨rfl, rep.flag, rep.cell, rep.var, rfl, rep.trace⟩

theorem destroyScratch_implements :
    Implements (destroyT .scratch : Code α ε Unit) (destroyT .scratch) := by
  intro w s rep
  simp only [destroyT, rep.value_eq]
  split
  · exact ⟨rfl, rep.flag, rep.cell, rep.var, rfl, congrArg _ rep.trace⟩
  · exact match_fault _ _

theorem bindParam_implements (v : Arg) {body : Arg → Code α ε Unit} {body' : Arg → Spec.Doc α ε Unit}
    (same : ∀ v, Implements (body v) (body' v)) :
    Implements (bindParam b v body) (bindParam b v body') := by
  unfold bindParam
  cases v.ty with
  | self => exact same _
  | other | inner =>
    exact refines_bind (constructScratch_implements b _ _) fun _ =>
      refines_bracket (same _) destroyScratch_implements

theorem innerHasValue_implements (hasValue : α → Bool) (l : Loc) :
    Implements (ε := ε) (innerHasValue hasValue l) (innerHasValue hasValue l) := by
  intro w s rep
  simp only [innerHasValue, rep.value_eq]
  cases value s l with
  | none => exact match_fault _ _
  | some v => exact ⟨rfl, rep⟩

/-! ### Flags and storage -/

theorem isInitialized_implements (o : ObjId) :
    Implements (isInitialized o : Code α ε Bool) (Spec.engaged o) := by
  intro w s rep
  simp only [isInitialized, Spec.engaged, rep.flag o]
  cases s.content o with
  | none => exact match_fault _ _
  | some c => exact ⟨rfl, rep⟩

theorem born_implements (o : ObjId) : Implements (born o false : Code α ε Unit) (Spec.appear o) := by
  intro w s rep
  simp only [born, Spec.appear, rep.flag o]
  cases content : s.content o with
  | none =>
    have empty := rep.cell o
    rw [content] at empty
    have step := rep.setContent o (w.cell o) none empty
    rw [w.setCell_self] at step
    exact ⟨rfl, step⟩
  | some c => exact match_fault _ _

theorem release_implements (o : ObjId) : Implements (release o : Code α ε Unit) (Spec.vanish o) := by
  intro w s rep
  simp only [Spec.vanish]
  cases content : s.content o with
  | none => exact match_fault _ _
  | some c =>
    cases c with
    | none => exact ⟨rfl, rep.setFlag_none (rep.cell_of_content content)⟩
    | some v => exact match_fault _ _

theorem construct_implements (how : Init) (o : ObjId) (args : List Arg) :
    Implements (do constructT b how (.contained o) args; setInit o true) (Spec.create b how o args) := by
  intro w s rep
  simp only [Spec.create]
  split
  · rename_i content
    have calls : Implements
        (do vacant (.contained o); let reply ← userCall b (.construct how (.contained o) args); settle reply
            write fun w => (place w (.contained o) reply.result).setFlag o (some true) : Code α ε Unit)
        (constructT b how (.contained o) args) := by
      refine refines_bind (vacant_implements _) fun _ =>
        refines_bind (userCall_implements b _) fun reply =>
        refines_bind (settle_implements reply) fun _ => ?_
      intro w s rep
      exact ⟨rfl, rep.setContent o (.live reply.result) (some reply.result) rfl⟩
    have step := calls w s rep
    convert step using 1
    simp only [constructT, bind_apply, andThen, setInit, write_apply]
    repeat' split
    all_goals simp_all
  · exact match_fault _ _

end BoostOptional
