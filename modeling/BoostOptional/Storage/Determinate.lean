import BoostOptional.Direct
import BoostOptional.Safety.Lifetime
import BoostOptional.Swap.Selector

/-!
In direct storage `m_storage` of every optional holds a value, whatever its flag. All operations keep
this but one: the constructor from `in_place_init_if` with a false condition has no member
initializer for `m_storage`. The defaulted copies and moves read `m_storage` of any optional.
-/

namespace BoostOptional.Direct
open Effect Prog Memory

variable {α ε : Type}

/-- `m_storage` of the optionals there are holds a value, and there is no temporary. -/
structure Determinate (w : World α) : Prop where
  storage : ∀ o, (w.value (.contained o)).isSome = (w.flag o).isSome
  scratch : w.scratch = none

/-- From `w` to `t` no object appears or goes, but `o` may have got a value. -/
structure Near (o : ObjId) (w t : World α) : Prop where
  flag : ∀ p, p ≠ o → t.flag p = w.flag p
  present : (t.flag o).isSome = (w.flag o).isSome
  value : ∀ p, p ≠ o → (t.value (.contained p)).isSome = (w.value (.contained p)).isSome
  kept : (w.value (.contained o)).isSome = true → (t.value (.contained o)).isSome = true

section Steps

variable {w t u : World α} {o : ObjId}

theorem Near.refl (o : ObjId) (w : World α) : Near o w w := ⟨fun _ _ => rfl, rfl, fun _ _ => rfl, id⟩

theorem Near.trans (first : Near o w t) (second : Near o t u) : Near o w u where
  flag p other := (second.flag p other).trans (first.flag p other)
  present := second.present.trans first.present
  value p other := (second.value p other).trans (first.value p other)
  kept held := second.kept (first.kept held)

theorem Near.live (near : Near o w t) {p : ObjId} (held : (w.value (.contained p)).isSome = true) :
    (t.value (.contained p)).isSome = true := by
  by_cases same : p = o
  · subst same
    exact near.kept held
  · rw [near.value p same, held]

theorem Near.determinate (near : Near o w t) (before : Determinate w) (here : w.flag o ≠ none)
    (scratch : t.scratch = none) : Determinate t where
  storage p := by
    by_cases same : p = o
    · subst same
      have flag : (w.flag p).isSome = true := Option.isSome_iff_ne_none.mpr here
      rw [near.present, flag]
      exact near.kept ((before.storage p).trans flag)
    · rw [near.flag p same, near.value p same, before.storage]
  scratch := scratch

theorem setFlag_near {init : Option Bool} (here : w.flag o ≠ none) (given : init ≠ none) :
    Near o w (w.setFlag o init) where
  flag _ other := if_neg other
  present := by
    rw [World.setFlag_flag, Option.isSome_iff_ne_none.mpr here, Option.isSome_iff_ne_none.mpr given]
  value _ _ := rfl
  kept := id

theorem called_near {operands : List Loc} (after : Loc → α) (c : Call)
    (live : ∀ l ∈ operands, l ≠ .contained o → (w.value l).isSome = true) :
    Near o w (log (update w operands after) c) where
  flag _ _ := rfl
  present := rfl
  value p other := by
    rw [World.called_value]
    split
    · rename_i member
      rw [live _ member fun same => other (Loc.contained.inj same)]
      rfl
    · rfl
  kept held := by
    rw [World.called_value]
    split
    · rfl
    · exact held

theorem called_scratch {operands : List Loc} (after : Loc → α) (c : Call)
    (live : ∀ l ∈ operands, l ≠ .contained o → (w.value l).isSome = true) :
    (log (update w operands after) c).scratch.isSome = w.scratch.isSome := by
  have scratch := World.called_value w operands after c .scratch
  split at scratch
  · rename_i member
    rw [show (log (update w operands after) c).scratch = _ from scratch]
    exact (live _ member nofun).symm
  · exact congrArg Option.isSome scratch

theorem scratch_none (same : t.scratch.isSome = w.scratch.isSome) (quiet : w.scratch = none) :
    t.scratch = none := by
  rw [quiet] at same
  exact Option.isNone_iff_eq_none.mp (Option.isSome_eq_false_iff.mp same)

variable (b : Behaviour α ε)

theorem settle_holds {reply : Reply α ε} {Q : World α → Prop} (here : Q w) :
    (settle reply w : Outcome (World α) ε Fault Unit).Holds (fun _ => Q) (fun _ => Q) := by
  unfold settle
  cases reply.threw <;> exact here

theorem assignStorage_near {v : Arg} (live : (w.value v.loc).isSome = true) :
    (assignStorage b o v w).Holds
      (fun _ t => Near o w t ∧ (t.value (.contained o)).isSome = true ∧
        t.scratch.isSome = w.scratch.isSome)
      (fun _ t => Near o w t ∧ (t.value (.contained o)).isSome = true ∧
        t.scratch.isSome = w.scratch.isSome) := by
  -- The storage assigned to holds a value, also when the assignment throws.
  simp only [assignStorage, live, if_true]
  have operands : ∀ l ∈ [.contained o, v.loc], l ≠ .contained o → (w.value l).isSome = true := by
    intro l member other
    rcases List.mem_cons.mp member with target | source
    · exact (other target).elim
    · rw [List.mem_singleton.mp source, live]
  have stored := World.called_value w [.contained o, v.loc]
    (b w.trace (.assign (.contained o) v) w.value).after (.assign (.contained o) v) (.contained o)
  rw [if_pos (List.mem_cons_self ..)] at stored
  exact settle_holds ⟨called_near _ _ operands, congrArg Option.isSome stored,
    called_scratch _ _ operands⟩

theorem args_live {args : List Arg} (live : ∀ v ∈ args, (w.value v.loc).isSome = true) :
    ∀ l ∈ args.map Arg.loc, l ≠ .contained o → (w.value l).isSome = true := by
  intro l member _
  obtain ⟨v, given, rfl⟩ := List.mem_map.mp member
  exact live v given

theorem all_live {args : List Arg} (live : ∀ v ∈ args, (w.value v.loc).isSome = true) :
    ((args.map Arg.loc).all fun l => (value w l).isSome) = true := by
  refine List.all_eq_true.mpr fun l member => ?_
  obtain ⟨v, given, rfl⟩ := List.mem_map.mp member
  exact live v given

theorem constructScratch_near {how : Init} {args : List Arg} (o : ObjId) (quiet : w.scratch = none)
    (live : ∀ v ∈ args, (w.value v.loc).isSome = true) :
    (constructT b how .scratch args w).Holds (fun _ t => Near o w t ∧ t.scratch.isSome = true)
      (fun _ t => Near o w t ∧ t.scratch = none) := by
  have operands := args_live (o := o) live
  have called := called_near (b w.trace (.construct how .scratch args) w.value).after
    (.construct how .scratch args) operands
  cases threw : (b w.trace (.construct how .scratch args) w.value).threw with
  | some e =>
    rw [constructT_throws quiet (all_live live) threw]
    exact ⟨called, scratch_none (called_scratch _ _ operands) quiet⟩
  | none =>
    rw [constructT_returns quiet (all_live live) threw]
    exact ⟨⟨called.flag, called.present, called.value, called.kept⟩, rfl⟩

theorem destroyScratch_near (o : ObjId) (live : w.scratch.isSome = true) {E : ε → World α → Prop} :
    ((destroyT .scratch : Code α ε Unit) w).Holds
      (fun _ t => Near o w t ∧ t.scratch = none ∧ t.flag = w.flag) E := by
  rw [destroyT_live live]
  exact ⟨⟨fun _ _ => rfl, rfl, fun _ _ => rfl, id⟩, rfl, rfl⟩

/-- The body of an operation: it may give `o` a value, and leaves no temporary. -/
def Fills (o : ObjId) (w : World α) (outcome : Outcome (World α) ε Fault Unit) : Prop :=
  outcome.Holds (fun _ t => Near o w t ∧ (t.value (.contained o)).isSome = true ∧ t.scratch = none)
    (fun _ t => Near o w t ∧ t.scratch = none)

theorem throughScratch_holds {how : Init} {args : List Arg} {body : Code α ε Unit}
    {F : Option Bool → Prop}
    (quiet : w.scratch = none) (live : ∀ v ∈ args, (w.value v.loc).isSome = true)
    (runs : ∀ t, Near o w t → t.scratch.isSome = true →
      (body t).Holds (fun _ u => Near o t u ∧ (u.value (.contained o)).isSome = true ∧
          u.scratch.isSome = t.scratch.isSome ∧ F (u.flag o))
        (fun _ u => Near o t u ∧ u.scratch.isSome = t.scratch.isSome)) :
    ((do constructT b how .scratch args; bracket body (destroyT .scratch) : Code α ε Unit) w).Holds
      (fun _ t => Near o w t ∧ (t.value (.contained o)).isSome = true ∧ t.scratch = none ∧ F (t.flag o))
      (fun _ t => Near o w t ∧ t.scratch = none) := by
  refine holds_andThen ((constructScratch_near b o quiet live).mono (fun _ _ done => done)
    fun _ _ failed => failed) ?_
  rintro _ t ⟨near, scratch⟩
  refine holds_bracket (runs t near scratch) (fun e u failed => ?_) (fun _ u done => ?_)
  · refine (destroyScratch_near o (by rw [failed.2, scratch])).mono ?_ (fun _ _ thrown => thrown)
    exact fun _ last ended => ⟨near.trans (failed.1.trans ended.1), ended.2.1⟩
  · refine (destroyScratch_near o (by rw [done.2.2.1, scratch])).mono ?_ (fun _ _ thrown => thrown)
    rintro _ last ⟨ended, gone, flags⟩
    exact ⟨near.trans (done.1.trans ended), ended.kept done.2.1, gone, by rw [flags]; exact done.2.2.2⟩

theorem assignPrvalue_fills {how : Init} {args : List Arg} (quiet : w.scratch = none)
    (live : ∀ v ∈ args, (w.value v.loc).isSome = true) : Fills o w (assignPrvalue b o how args w) := by
  refine (throughScratch_holds b (F := fun _ => True) quiet live fun t _ scratch => ?_).mono
    (fun _ _ done => ⟨done.1, done.2.1, done.2.2.1⟩) (fun _ _ failed => failed)
  exact (assignStorage_near b (v := ⟨.scratch, .rvalue, .self⟩) scratch).mono
    (fun _ _ done => ⟨done.1, done.2.1, done.2.2, trivial⟩) (fun _ _ failed => ⟨failed.1, failed.2.2⟩)

theorem placeStorage_fills {how : Init} {args : List Arg} (quiet : w.scratch = none)
    (live : ∀ v ∈ args, (w.value v.loc).isSome = true) :
    Fills o w (placeStorage b o how args w) := by
  have operands := args_live (o := o) live
  have called := called_near (b w.trace (.construct how (.contained o) args) w.value).after
    (.construct how (.contained o) args) operands
  have empty := scratch_none (called_scratch
    (b w.trace (.construct how (.contained o) args) w.value).after
    (.construct how (.contained o) args) operands) quiet
  simp only [placeStorage, bind_apply, andThen, userCall, Call.operands, all_live live, if_true, settle]
  rw [show value w = w.value from rfl, show trace w = w.trace from rfl]
  cases (b w.trace (.construct how (.contained o) args) w.value).threw with
  | some e => exact ⟨called, empty⟩
  | none =>
    refine ⟨⟨called.flag, called.present, fun p other => ?_, fun _ => ?_⟩, ?_, empty⟩
    · rw [← called.value p other]
      simp only [World.value, World.setCell, if_neg other]
    · simp [World.value, World.setCell, Cell.value?]
    · simp [World.value, World.setCell, Cell.value?]

theorem Near.here (near : Near o w t) (here : w.flag o ≠ none) : t.flag o ≠ none := by
  rw [← Option.isSome_iff_ne_none, near.present, Option.isSome_iff_ne_none]
  exact here

/-! ### The functions of the base -/

def Sets (o : ObjId) (w : World α) (outcome : Outcome (World α) ε Fault Unit) : Prop :=
  outcome.Holds (fun _ t => Near o w t ∧ (t.value (.contained o)).isSome = true ∧ t.scratch = none ∧
      t.flag o = some true)
    (fun _ t => Near o w t ∧ t.scratch = none)

theorem Sets.fills {outcome : Outcome (World α) ε Fault Unit} (sets : Sets o w outcome) :
    Fills o w outcome :=
  sets.mono (fun _ _ done => ⟨done.1, done.2.1, done.2.2.1⟩) (fun _ _ failed => failed)

theorem sets_setInit {body : Code α ε Unit} (here : w.flag o ≠ none) (fills : Fills o w (body w)) :
    Sets o w ((do body; setInit o true : Code α ε Unit) w) := by
  refine holds_andThen fills ?_
  rintro _ t ⟨near, held, scratch⟩
  exact ⟨near.trans (setFlag_near (near.here here) (Option.some_ne_none _)), held, scratch,
    World.setFlag_flag t o _⟩

theorem constructInPlace_sets (args : List Arg) (here : w.flag o ≠ none) (quiet : w.scratch = none)
    (live : ∀ v ∈ args, (w.value v.loc).isSome = true) : Sets o w (constructInPlace b o args w) :=
  sets_setInit here (assignPrvalue_fills b quiet live)

theorem constructFactory_sets {how : Init} {args : List Arg} (here : w.flag o ≠ none)
    (quiet : w.scratch = none)
    (live : ∀ v ∈ args, (w.value v.loc).isSome = true) : Sets o w (constructFactory b o how args w) :=
  sets_setInit here (placeStorage_fills b quiet live)

theorem construct_sets {v : Arg} (here : w.flag o ≠ none) (quiet : w.scratch = none)
    (live : (w.value v.loc).isSome = true) : Sets o w (construct b o v w) := by
  have stores : ∀ (u : Arg) (t : World α), (t.value u.loc).isSome = true →
      (assignStorage b o { u with cat := .constLvalue } t).Holds
        (fun _ t' => Near o t t' ∧ (t'.value (.contained o)).isSome = true ∧
          t'.scratch.isSome = t.scratch.isSome)
        (fun _ t' => Near o t t' ∧ (t'.value (.contained o)).isSome = true ∧
          t'.scratch.isSome = t.scratch.isSome) :=
    fun u t live => assignStorage_near b (v := { u with cat := .constLvalue }) live
  unfold construct
  by_cases self : v.ty = .self
  · rw [bindParam_self b self]
    refine sets_setInit here ((stores { v with cat := v.cat.bound } w live).mono ?_ ?_)
    · exact fun _ t done => ⟨done.1, done.2.1, scratch_none done.2.2 quiet⟩
    · exact fun _ t failed => ⟨failed.1, scratch_none failed.2.2 quiet⟩
  · rw [bindParam_other b self]
    refine throughScratch_holds b (F := fun init => init = some true) quiet (fun u given => ?_)
      fun t near scratch => holds_andThen ((stores ⟨.scratch, .rvalue, .self⟩ t scratch).mono
        (fun _ _ done => done) fun _ _ failed => ⟨failed.1, failed.2.2⟩) ?_
    · rw [List.mem_singleton.mp given, live]
    · rintro _ u ⟨stored, held, same⟩
      exact ⟨stored.trans (setFlag_near (stored.here (near.here here)) (Option.some_ne_none _)),
        held, same, World.setFlag_flag u o _⟩

/-! ### Constructors -/

def Created (o : ObjId) (w t : World α) : Prop :=
  Determinate t ∧ t.flag o ≠ none ∧ ∀ p, p ≠ o → t.flag p = w.flag p

theorem body_created {body : Code α ε Unit} (before : Determinate w) (flag : t.flag o ≠ none)
    (flags : ∀ p, p ≠ o → t.flag p = w.flag p)
    (values : ∀ p, p ≠ o → t.value (.contained p) = w.value (.contained p))
    (fills : Fills o t (body t)) :
    (onThrow body (releaseStorage o) t).Holds (fun _ => Created o w) (fun _ => Determinate) := by
  have others : ∀ u : World α, Near o t u → ∀ p, p ≠ o →
    (u.value (.contained p)).isSome = (u.flag p).isSome := by
    intro u near p other
    rw [near.flag p other, near.value p other, flags p other, values p other, before.storage]
  refine holds_onThrow (fills.mono
    (fun _ u done => ⟨⟨fun p => ?_, done.2.2⟩, done.1.here flag, fun p other => ?_⟩)
    (fun _ _ failed => failed)) ?_
  · by_cases same : p = o
    · subst same
      rw [done.2.1, done.1.present, Option.isSome_iff_ne_none.mpr flag]
    · exact others u done.1 p same
  · rw [done.1.flag p other, flags p other]
  · rintro e u ⟨near, scratch⟩
    refine ⟨fun p => ?_, scratch⟩
    by_cases same : p = o
    · simp [World.value, World.setCell, World.setFlag, Cell.value?, same]
    · have kept := others u near p same
      simp only [World.value] at kept
      simp only [World.value, World.setCell, World.setFlag, if_neg same, kept]

theorem absent_dead (before : Determinate w) (absent : w.flag o = none) {l : Loc}
    (live : (w.value l).isSome = true) :
    l ≠ .contained o := by
  rintro rfl
  rw [before.storage, absent] at live
  cases live

theorem memberCtor_created {init : Bool} {args : List Arg} (before : Determinate w)
    (absent : w.flag o = none)
    (live : ∀ v ∈ args, (w.value v.loc).isSome = true) :
    (memberCtor b o init args w).Holds (fun _ => Created o w) (fun _ => Determinate) := by
  simp only [memberCtor, bind_apply, andThen, born, absent]
  refine body_created before (by simp [World.setFlag_flag])
    (fun p other => World.setFlag_flag_other w _ other)
    (fun p _ => rfl) (placeStorage_fills b before.scratch fun v given => ?_)
  rw [World.setFlag_value, live v given]

theorem memberCtor_determinate {init : Bool} {args : List Arg} (before : Determinate w)
    (absent : w.flag o = none)
    (live : ∀ v ∈ args, (w.value v.loc).isSome = true) :
    (memberCtor b o init args w).Holds (fun _ => Determinate) (fun _ => Determinate) :=
  (memberCtor_created b before absent live).mono (fun _ _ done => done.1) (fun _ _ failed => failed)

theorem bodyCtor_determinate {body : Code α ε Unit} (before : Determinate w) (absent : w.flag o = none)
    (fills : ∀ t : World α, t.flag o ≠ none → t.scratch = none →
      (∀ l, (w.value l).isSome = true → (t.value l).isSome = true) → Fills o t (body t)) :
    (bodyCtor o body w).Holds (fun _ => Determinate) (fun _ => Determinate) := by
  simp only [bodyCtor, bind_apply, andThen, born, absent, write_apply]
  have flag : ((w.setFlag o (some false)).setCell o .indeterminate).flag o ≠ none := by
    rw [show ((w.setFlag o (some false)).setCell o .indeterminate).flag o =
      _ from World.setFlag_flag w o _]
    exact Option.some_ne_none _
  refine (body_created (t := (w.setFlag o (some false)).setCell o .indeterminate) before flag
    (fun p other => World.setFlag_flag_other w _ other) (fun p other => ?_)
    (fills _ flag before.scratch fun l live => ?_)).mono (fun _ _ done => done.1)
      (fun _ _ failed => failed)
  · rw [World.setCell_value _ _ _ fun same => other (Loc.contained.inj same), World.setFlag_value]
  · rw [World.setCell_value _ _ _ (absent_dead before absent live), World.setFlag_value, live]

theorem releaseStorage_determinate (before : Determinate w) (o : ObjId) :
    (releaseStorage o w : Outcome (World α) ε Fault Unit).Holds (fun _ => Determinate)
    (fun _ => Determinate) := by
  refine ⟨fun p => ?_, before.scratch⟩
  by_cases same : p = o
  · simp [World.value, World.setCell, World.setFlag, Cell.value?, same]
  · have kept := before.storage p
    simp only [World.value] at kept
    simp only [World.value, World.setCell, World.setFlag, if_neg same, kept]

/-! ### Operations on optionals that exist -/

def Steady (w t : World α) : Prop := Determinate t ∧ ∀ p, (t.flag p).isSome = (w.flag p).isSome

theorem Near.steady (near : Near o w t) (before : Determinate w) (here : w.flag o ≠ none)
    (scratch : t.scratch = none) :
    Steady w t := by
  refine ⟨near.determinate before here scratch, fun p => ?_⟩
  by_cases same : p = o
  · rw [same, near.present]
  · rw [near.flag p same]

theorem Fills.determinate {outcome : Outcome (World α) ε Fault Unit} (fills : Fills o w outcome)
    (before : Determinate w)
    (here : w.flag o ≠ none) : outcome.Holds (fun _ => Determinate) (fun _ => Determinate) :=
  fills.mono (fun _ _ done => done.1.determinate before here done.2.2)
    (fun _ _ failed => failed.1.determinate before here failed.2)

theorem Fills.steady {outcome : Outcome (World α) ε Fault Unit} (fills : Fills o w outcome)
    (before : Determinate w)
    (here : w.flag o ≠ none) : outcome.Holds (fun _ => Steady w) (fun _ => Determinate) :=
  fills.mono (fun _ _ done => done.1.steady before here done.2.2)
    (fun _ _ failed => failed.1.determinate before here failed.2)

theorem Steady.here (steady : Steady w t) (here : w.flag o ≠ none) : t.flag o ≠ none := by
  rw [← Option.isSome_iff_ne_none, steady.2, Option.isSome_iff_ne_none]
  exact here

theorem setInit_determinate (init : Bool) (before : Determinate w) (here : w.flag o ≠ none) :
    (setInit o init w : Outcome (World α) ε Fault Unit).Holds (fun _ => Determinate)
    (fun _ => Determinate) := by
  have near : Near o w (w.setFlag o (some init)) := setFlag_near here (Option.some_ne_none _)
  exact near.determinate before here before.scratch

theorem held (before : Determinate w) (here : w.flag o ≠ none) :
    (w.value (.contained o)).isSome = true := by
  rw [before.storage, Option.isSome_iff_ne_none]
  exact here

theorem memberwiseAssign_determinate {this rhs : ObjId} (cat : Cat) (before : Determinate w)
    (here : w.flag this ≠ none)
    (there : w.flag rhs ≠ none) :
    (memberwiseAssign b this rhs cat w).Holds (fun _ => Determinate) (fun _ => Determinate) := by
  -- `m_storage` of the source is read whether or not its flag is set.
  obtain ⟨init, flag⟩ := Option.ne_none_iff_exists'.mp there
  simp only [memberwiseAssign, bind_apply, andThen, isInitialized, flag]
  have near : Near this w (w.setFlag this (some init)) := setFlag_near here (Option.some_ne_none _)
  have set := near.determinate before here before.scratch
  have live : ((w.setFlag this (some init)).value (.contained rhs)).isSome = true := by
    rw [World.setFlag_value, held before there]
  refine (assignStorage_near b (v := ⟨.contained rhs, cat, .self⟩) live).mono (fun _ t done => ?_)
    (fun _ t failed => ?_)
  · exact done.1.determinate set (near.here here) (scratch_none done.2.2 set.scratch)
  · exact failed.1.determinate set (near.here here) (scratch_none failed.2.2 set.scratch)

theorem assignFrom_determinate {this rhs : ObjId} (cat : Cat) (before : Determinate w)
    (here : w.flag this ≠ none)
    (there : w.flag rhs ≠ none) :
    (assignFrom b this rhs cat w).Holds (fun _ => Determinate) (fun _ => Determinate) := by
  obtain ⟨init, flag⟩ := Option.ne_none_iff_exists'.mp there
  have rest : ∀ t : World α, Steady w t →
      ((do let init ← isInitialized rhs; setInit this init : Code α ε Unit) t).Holds (fun _ => Determinate)
        (fun _ => Determinate) := by
    intro t steady
    obtain ⟨init', flag'⟩ := Option.ne_none_iff_exists'.mp (steady.here there)
    simp only [bind_apply, andThen, isInitialized, flag']
    exact setInit_determinate init' steady.1 (steady.here here)
  rw [assignFrom, bind_apply, andThen_ok (isInitialized_eq flag)]
  cases init with
  | true =>
    refine holds_andThen ((assignPrvalue_fills b before.scratch fun v given =>
      ?_).steady before here) fun _ => rest
    rw [List.mem_singleton.mp given]
    exact held before there
  | false => exact rest w ⟨before, fun _ => rfl⟩

/-! ### Swap -/

theorem invokeSwap_determinate {x y : ObjId} (before : Determinate w) (hereX : w.flag x ≠ none)
    (hereY : w.flag y ≠ none) :
    (invokeSwap b (.contained x) (.contained y) w).Holds
      (fun _ t => Determinate t ∧ t.flag = w.flag) (fun _ => Determinate) := by
  have operands : ∀ l ∈ [Loc.contained x, .contained y],
    l ≠ .contained x → (w.value l).isSome = true := by
    intro l member _
    rcases List.mem_cons.mp member with rfl | member
    · exact held before hereX
    · rw [List.mem_singleton.mp member]
      exact held before hereY
  have called : Determinate (log (update w [.contained x, .contained y]
      (b w.trace (.swap (.contained x) (.contained y)) w.value).after)
      (.swap (.contained x) (.contained y))) :=
    (called_near _ _ operands).determinate before hereX
      (scratch_none (called_scratch _ _ operands) before.scratch)
  cases threw : (b w.trace (.swap (.contained x) (.contained y)) w.value).threw with
  | some e =>
    rw [invokeSwap_throws (held before hereX) (held before hereY) threw]
    exact called
  | none =>
    rw [invokeSwap_returns (held before hereX) (held before hereY) threw]
    exact ⟨called, rfl⟩

theorem moveAcross_determinate {dst src : ObjId} (before : Determinate w) (here : w.flag dst ≠ none)
    (full : w.flag src = some true) :
    (moveAcross (legacyOps b) dst src w).Holds (fun _ => Determinate) (fun _ => Determinate) := by
  have there : w.flag src ≠ none := by rw [full]; nofun
  have moved := construct_sets b (o := dst) (v := ⟨.contained src, .rvalue, .self⟩) here before.scratch
    (held before there)
  refine holds_andThen (moved.fills.steady before here) fun _ t steady => ?_
  exact setInit_determinate false steady.1 (steady.here there)

theorem optionalSwapMove_determinate {x y : ObjId} (before : Determinate w) (hereX : w.flag x ≠ none)
    (hereY : w.flag y ≠ none) :
    (optionalSwapMove b (legacyOps b) x y w).Holds (fun _ => Determinate) (fun _ => Determinate) := by
  obtain ⟨hasX, flagX⟩ := Option.ne_none_iff_exists'.mp hereX
  obtain ⟨hasY, flagY⟩ := Option.ne_none_iff_exists'.mp hereY
  rw [optionalSwapMove_eq (legacyOps b) flagX flagY]
  cases hasX with
  | true =>
    cases hasY with
    | true =>
      exact (invokeSwap_determinate b before hereX hereY).mono (fun _ _ done => done.1)
        (fun _ _ failed => failed)
    | false => exact moveAcross_determinate b before hereY flagX
  | false =>
    cases hasY with
    | true => exact moveAcross_determinate b before hereX flagY
    | false => exact before

theorem throughDefault_determinate {dst src x y : ObjId} (before : Determinate w)
    (empty : w.flag dst = some false)
    (full : w.flag src = some true) (pair : (x = dst ∧ y = src) ∨ (x = src ∧ y = dst)) :
    ((do emplace b dst []; swapValues b x y (assignNone src) : Code α ε Unit) w).Holds
      (fun _ => Determinate) (fun _ => Determinate) := by
  have here : w.flag dst ≠ none := by rw [empty]; nofun
  have apart : src ≠ dst := by
    rintro rfl
    rw [empty] at full
    cases full
  refine holds_andThen ((constructInPlace_sets b (o := dst) [] here before.scratch nofun).mono
    (fun _ _ done => done) fun _ _ failed => failed.1.determinate before here failed.2) ?_
  rintro _ t ⟨near, _, scratch, set⟩
  have now := near.determinate before here scratch
  have still : t.flag src = some true := by rw [near.flag src apart, full]
  have setX : t.flag x = some true := by rcases pair with ⟨rfl, _⟩ | ⟨rfl, _⟩ <;> assumption
  have setY : t.flag y = some true := by rcases pair with ⟨_, rfl⟩ | ⟨_, rfl⟩ <;> assumption
  rw [swapValues_eq (assignNone src) setX setY]
  refine holds_andThen (invokeSwap_determinate b now (by rw [setX]; nofun) (by rw [setY]; nofun)) ?_
  rintro _ u ⟨swapped, flags⟩
  exact setInit_determinate false swapped (by rw [flags, still]; nofun)

theorem optionalSwapDefault_determinate {x y : ObjId} (before : Determinate w) (hereX : w.flag x ≠ none)
    (hereY : w.flag y ≠ none) :
    (optionalSwapDefault b (legacyOps b) x y w).Holds (fun _ => Determinate)
    (fun _ => Determinate) := by
  obtain ⟨hasX, flagX⟩ := Option.ne_none_iff_exists'.mp hereX
  obtain ⟨hasY, flagY⟩ := Option.ne_none_iff_exists'.mp hereY
  rw [optionalSwapDefault_eq (legacyOps b) flagX flagY]
  cases hasX with
  | true =>
    cases hasY with
    | true =>
      exact (invokeSwap_determinate b before hereX hereY).mono (fun _ _ done => done.1)
        (fun _ _ failed => failed)
    | false => exact throughDefault_determinate b before flagY flagX (.inr ⟨rfl, rfl⟩)
  | false =>
    cases hasY with
    | true => exact throughDefault_determinate b before flagX flagY (.inl ⟨rfl, rfl⟩)
    | false => exact before

theorem swap_determinate (useDefault : Bool) {x y : ObjId} (before : Determinate w)
    (hereX : w.flag x ≠ none)
    (hereY : w.flag y ≠ none) :
    (swap b useDefault x y w).Holds (fun _ => Determinate) (fun _ => Determinate) := by
  cases useDefault with
  | false => exact optionalSwapMove_determinate b before hereX hereY
  | true => exact optionalSwapDefault_determinate b before hereX hereY

theorem convCtor_determinate {rhs : ObjId} (cat : Cat) (before : Determinate w)
    (absent : w.flag o = none)
    (there : w.flag rhs ≠ none) :
    (convCtor b o rhs cat w).Holds (fun _ => Determinate) (fun _ => Determinate) := by
  -- Constructors from an `optional<U>` start from an empty optional, which has a value too.
  refine holds_andThen (memberCtor_created b before absent nofun) fun _ t created => ?_
  obtain ⟨now, here, others⟩ := created
  have apart : rhs ≠ o := by
    rintro rfl
    exact there absent
  obtain ⟨init, flag⟩ := Option.ne_none_iff_exists'.mp there
  have flag' : t.flag rhs = some init := by rw [others rhs apart, flag]
  have still : t.flag rhs ≠ none := by rw [flag']; nofun
  refine holds_onThrow (E := fun _ => Determinate) ?_ fun e u failed =>
    releaseStorage_determinate failed o
  rw [bind_apply, andThen_ok (isInitialized_eq flag')]
  cases init with
  | true =>
    have built :=
      construct_sets b (o := o) (v := ⟨.contained rhs, cat, .other⟩) here now.scratch (held now still)
    exact built.fills.determinate now here
  | false => exact now

end Steps

/-! ### Operations and runs -/

variable (b : Behaviour α ε)

/-- The one constructor that gives `m_storage` no value. -/
def LeavesStorage (op : Op) : Prop := ∃ o args, op = .inPlaceIfCtor o false args

theorem exec_determinate (useDefault : Bool) {op : Op} {w : World α} (before : Determinate w)
    (legal : op.Legal w)
    (fills : ¬ LeavesStorage op) :
    (exec b useDefault op w).Holds (fun _ => Determinate) (fun _ => Determinate) := by
  obtain ⟨creates, objects, sources⟩ := legal
  have passed : ∀ args : List Arg, args.map Arg.loc ⊆ op.sources →
    ∀ v ∈ args, (w.value v.loc).isSome = true :=
    fun args given v member => sources _ (given (List.mem_map_of_mem member))
  cases op with
  | defaultCtor o | noneCtor o => exact memberCtor_determinate b before (creates _ (.head _)) nofun
  | valueCtor o src cat | condCtor o cond src cat =>
    exact memberCtor_determinate b before (creates _ (.head _)) (passed _ fun _ => id)
  | inPlaceCtor o args =>
    refine bodyCtor_determinate before (creates _ (.head _)) fun t here quiet live => ?_
    exact (constructInPlace_sets b args here quiet fun v given =>
      live _ (passed args (fun _ => id) v given)).fills
  | inPlaceIfCtor o cond args =>
    cases cond with
    | false => exact (fills ⟨o, args, rfl⟩).elim
    | true =>
      refine bodyCtor_determinate before (creates _ (.head _)) fun t here quiet live => ?_
      exact (constructInPlace_sets b args here quiet fun v given =>
        live _ (passed args (fun _ => id) v given)).fills
  | copyCtor o rhs | moveCtor o rhs =>
    have there := objects _ (.head _)
    obtain ⟨init, flag⟩ := Option.ne_none_iff_exists'.mp there
    simp only [exec, copyCtor, moveCtor, memberwiseCtor]
    rw [bind_apply, andThen_ok (isInitialized_eq flag)]
    refine memberCtor_determinate b before (creates _ (.head _)) fun v given => ?_
    rw [List.mem_singleton.mp given]
    exact held before there
  | convCopyCtor o rhs | convMoveCtor o rhs =>
    exact convCtor_determinate b _ before (creates _ (.head _)) (objects _ (.head _))
  | factoryCtor o typed args =>
    refine bodyCtor_determinate before (creates _ (.head _)) fun t here quiet live => ?_
    exact (constructFactory_sets b here quiet fun v given =>
      live _ (passed args (fun _ => id) v given)).fills
  | exprCtor o src cat =>
    refine bodyCtor_determinate before (creates _ (.head _)) fun t here quiet live => ?_
    exact (sets_setInit here (assignPrvalue_fills b quiet fun v given =>
      live _ (passed [⟨src, cat, .other⟩] (fun _ => id) v given))).fills
  | assignNone this | reset this => exact setInit_determinate false before (objects _ (.head _))
  | assignFromT this src cat =>
    exact (construct_sets b (v := ⟨src, cat, .self⟩) (objects _ (.head _)) before.scratch
      (sources src (.head _))).fills.determinate before (objects _ (.head _))
  | resetValue this src =>
    exact (construct_sets b (v := ⟨src, .constLvalue, .self⟩) (objects _ (.head _)) before.scratch
      (sources src (.head _))).fills.determinate before (objects _ (.head _))
  | assignFromU this src cat =>
    exact (sets_setInit (objects _ (.head _)) (assignPrvalue_fills b before.scratch fun v given =>
      passed [⟨src, cat, .other⟩] (fun _ => id) v given)).fills.determinate before (objects _ (.head _))
  | copyAssign this rhs | moveAssign this rhs =>
    exact memberwiseAssign_determinate b _ before (objects _ (.head _)) (objects _ (.tail _ (.head _)))
  | convCopyAssign this rhs | convMoveAssign this rhs =>
    exact assignFrom_determinate b _ before (objects _ (.head _)) (objects _ (.tail _ (.head _)))
  | assignFactory this typed args =>
    exact (constructFactory_sets b (objects _ (.head _)) before.scratch
      (passed args fun _ => id)).fills.determinate before
      (objects _ (.head _))
  | emplace this args =>
    exact (constructInPlace_sets b args (objects _ (.head _)) before.scratch
      (passed args fun _ => id)).fills.determinate
      before (objects _ (.head _))
  | swap x y =>
    exact swap_determinate b useDefault before (objects _ (.head _)) (objects _ (.tail _ (.head _)))
  | destroy o => exact releaseStorage_determinate before _

theorem initial_determinate (var : Nat → α) : Determinate (World.initial var) where
  storage _ := rfl
  scratch := rfl

/-- While every `in_place_init_if` has a true condition, `m_storage` of each optional has a value, and
no operation goes on to read one that has none. -/
theorem run_determinate (useDefault : Bool) {var : Nat → α} {w : World α}
    {events : List (Op × Option ε)}
    (run : ((system b useDefault).restrict fun op _ => ¬ LeavesStorage op).Run
      (World.initial var) events w) :
    (∀ o, w.flag o ≠ none → ∃ v, w.cell o = .live v) ∧
      ∀ op : Op, op.Legal w → ¬ LeavesStorage op →
        (exec b useDefault op w).Holds (fun _ => Determinate) (fun _ => Determinate) := by
  have determinate : Determinate w := by
    refine System.Run.invariant (I := Determinate) ?_ run (initial_determinate var)
    intro op u legal before
    exact exec_determinate b useDefault before legal.1 legal.2
  refine ⟨fun o here => ?_, fun op => exec_determinate b useDefault determinate⟩
  have stored : ((w.cell o).value?).isSome = true := held determinate here
  cases cell : w.cell o with
  | live v => exact ⟨v, rfl⟩
  | vacant | stale v | indeterminate =>
    rw [cell] at stored
    cases stored

/-- An empty optional is made and copied, and the copy reads its `m_storage`. -/
theorem run_determinate_copy :
    ∃ w, ((system (intLike fun _ _ => (none : Option Unit)) false).restrict fun op _ =>
        ¬ LeavesStorage op).Run
        (World.initial fun _ => 1) [(.defaultCtor 0, none), (.copyCtor 1 0, none)] w ∧
      ∃ v, w.cell (.named 1) = .live v := by
  obtain ⟨w, run, here⟩ : ∃ w, ((system (intLike fun _ _ => (none : Option Unit)) false).restrict
      fun op _ => ¬ LeavesStorage op).Run
        (World.initial fun _ => 1) [(.defaultCtor 0, none), (.copyCtor 1 0, none)] w ∧
      w.flag (.named 1) ≠ none :=
    ⟨_, .cons ⟨show Op.Legal _ _ by decide, fun ⟨_, _, same⟩ => by cases same⟩ ⟨rfl, rfl⟩
      (.cons ⟨show Op.Legal _ _ by decide, fun ⟨_, _, same⟩ => by cases same⟩ ⟨rfl, rfl⟩
        (.nil _)), by decide⟩
  exact ⟨w, run, (run_determinate _ _ run).1 _ here⟩

/-- `optional<int> a(in_place_init_if, false), b(a);` -/
theorem inPlaceIfCtor_indeterminate :
    ∃ w, (system (intLike fun _ _ => (none : Option Unit)) false).Run (World.initial fun _ => 1)
        [(.inPlaceIfCtor 0 false [⟨.var 0, .rvalue, .self⟩], none)] w ∧
      w.flag (.named 0) = some false ∧ w.cell (.named 0) = .indeterminate ∧ (Op.copyCtor 1 0).Legal w ∧
      ∃ reason, exec (intLike fun _ _ => (none : Option Unit)) false
        (.copyCtor 1 0) w = .fault reason :=
  ⟨_, .cons (show Op.Legal _ _ by decide) ⟨rfl, rfl⟩ (.nil _), rfl, rfl, by decide, _, rfl⟩

end BoostOptional.Direct
