import BoostOptional.Refinement.AlignedBase

/-!
The occupancy of a state: which optionals exist and which of them have a value. Every action of
the document moves the occupancy in a known way, and when it throws the occupancy is known as
well. Under `strong` the element type also restores the operands of a call that throws, and then a
throw leaves every value as it was.
-/

namespace BoostOptional.Spec
open Effect Prog Memory

variable {α ε : Type}

structure Occupancy where
  flag : ObjId → Option Bool
  scratch : Bool

namespace Occupancy

def live (k : Occupancy) : Loc → Bool
  | .contained o => k.flag o = some true
  | .var _ => true
  | .scratch => k.scratch

def set (k : Occupancy) (o : ObjId) (init : Option Bool) : Occupancy :=
  { k with flag := fun p => if p = o then init else k.flag p }

@[simp] theorem set_scratch (k : Occupancy) (o : ObjId) (init : Option Bool) :
    (k.set o init).scratch = k.scratch := rfl

@[simp] theorem set_same (k : Occupancy) (o : ObjId) (init : Option Bool) :
    (k.set o init).flag o = init := if_pos rfl

theorem set_other (k : Occupancy) {o p : ObjId} (init : Option Bool) (other : p ≠ o) :
    (k.set o init).flag p = k.flag p := if_neg other

@[simp] theorem set_set (k : Occupancy) (o : ObjId) (first second : Option Bool) :
    (k.set o first).set o second = k.set o second := by
  simp only [set, mk.injEq, and_true]
  funext p
  split <;> rfl

theorem set_comm (k : Occupancy) {o p : ObjId} (apart : o ≠ p) (first second : Option Bool) :
    (k.set o first).set p second = (k.set p second).set o first := by
  simp only [set, mk.injEq, and_true]
  funext q
  by_cases atO : q = o <;> by_cases atP : q = p <;> simp_all

theorem set_flag {k : Occupancy} {o : ObjId} {init : Option Bool} (same : k.flag o = init) :
    k.set o init = k := by
  cases k
  simp only [set, mk.injEq, and_true]
  funext p
  split
  · rename_i here
    rw [here, ← same]
  · rfl

theorem live_set (k : Occupancy) {o : ObjId} (init : Option Bool) {l : Loc} (other : l ≠ .contained o) :
    (k.set o init).live l = k.live l := by
  cases l with
  | contained p => simp [live, set_other k init (fun same : p = o => other (congrArg _ same))]
  | var x => rfl
  | scratch => rfl

theorem live_apart {k : Occupancy} {o : ObjId} {l : Loc} (absent : k.flag o = none)
    (live : k.live l = true) :
    l ≠ .contained o := fun same => by simp [same, Occupancy.live, absent] at live

end Occupancy

def State.occupancy (s : State α) : Occupancy where
  flag o := (s.content o).map Option.isSome
  scratch := s.scratch.isSome

variable {s t : State α}

theorem value_isSome (s : State α) (l : Loc) : (value s l).isSome = s.occupancy.live l := by
  cases l with
  | contained o =>
    change (s.content o).join.isSome = decide ((s.content o).map Option.isSome = some true)
    cases s.content o with
    | none => rfl
    | some c => cases c <;> rfl
  | var x => rfl
  | scratch => rfl

theorem content_of_empty {o : ObjId} (empty : s.occupancy.flag o = some false) :
    s.content o = some none := by
  change (s.content o).map Option.isSome = _ at empty
  cases content : s.content o with
  | none => simp [content] at empty
  | some c => cases c <;> simp_all

theorem content_of_absent {o : ObjId} (absent : s.occupancy.flag o = none) : s.content o = none := by
  simpa [State.occupancy] using absent

theorem setContent_occupancy (s : State α) (o : ObjId) (c : Option (Option α)) :
    (s.setContent o c).occupancy = s.occupancy.set o (c.map Option.isSome) := by
  simp only [State.occupancy, State.setContent, Occupancy.set, Occupancy.mk.injEq, and_true]
  funext p
  split <;> rfl

theorem update_occupancy {operands : List Loc} (live : ∀ l ∈ operands, s.occupancy.live l = true)
    (after : Loc → α) : (update s operands after).occupancy = s.occupancy := by
  simp only [State.occupancy, Memory.update, State.update, Occupancy.mk.injEq]
  constructor
  · funext o
    split
    · rename_i member
      have engaged : s.occupancy.flag o = some true := by simpa [Occupancy.live] using live _ member
      exact engaged.symm
    · rfl
  · split
    · rename_i member
      exact (live _ member).symm
    · rfl

theorem engaged_holds {o : ObjId} {init : Bool} (here : s.occupancy.flag o = some init) :
    (engaged o : Doc α ε Bool) s = .ok init s := by
  change (s.content o).map Option.isSome = _ at here
  simp only [engaged]
  cases content : s.content o with
  | none => simp [content] at here
  | some c => simp_all

/-! ### Throwing -/

/-- What a throw leaves: the same occupancy, and under `strong` the same values. -/
def Undone (strong : Prop) (s t : State α) : Prop :=
  t.occupancy = s.occupancy ∧ (strong → value t = value s)

theorem Undone.trans {strong : Prop} {s t u : State α} (first : Undone strong s t)
    (second : Undone strong t u) :
    Undone strong s u :=
  ⟨second.1.trans first.1, fun strongly => (second.2 strongly).trans (first.2 strongly)⟩

/-- The operands of a call `c` that throws are as they were. -/
def Restores (b : Behaviour α ε) (c : Call) : Prop :=
  ∀ trace values, ((b trace c values).threw).isSome = true →
    ∀ l ∈ c.operands, ∀ v, values l = some v → (b trace c values).after l = v

theorem Restores.value_eq {b : Behaviour α ε} {c : Call} (restores : Restores b c)
    (live : ∀ l ∈ c.operands, s.occupancy.live l = true) {e : ε}
    (threw : (b (trace s) c (value s)).threw = some e) :
    value (log (update s c.operands (b (trace s) c (value s)).after) c) = value s := by
  have back : ∀ l ∈ c.operands, some ((b (trace s) c (value s)).after l) = value s l := by
    intro l member
    have held := live l member
    rw [← value_isSome, Option.isSome_iff_exists] at held
    obtain ⟨v, held⟩ := held
    rw [held, restores (trace s) (value s) (by simp [threw]) l member v held]
  funext l
  cases l with
  | contained o =>
    simp only [Memory.value, State.value, Memory.log, Memory.update, State.update]
    split
    · rename_i member
      exact back _ member
    · rfl
  | var x =>
    simp only [Memory.value, State.value, Memory.log, Memory.update, State.update]
    split
    · rename_i member
      exact back _ member
    · rfl
  | scratch =>
    simp only [Memory.value, State.value, Memory.log, Memory.update, State.update]
    split
    · rename_i member
      exact back _ member
    · rfl

/-! ### T's operations -/

variable (b : Behaviour α ε) (strong : Prop)

theorem all_live {operands : List Loc} (live : ∀ l ∈ operands, s.occupancy.live l = true) :
    operands.all (fun l => (value s l).isSome) = true := by
  rw [List.all_eq_true]
  intro l member
  rw [value_isSome]
  exact live l member

theorem called_undone {c : Call} (live : ∀ l ∈ c.operands, s.occupancy.live l = true)
    (restores : strong → Restores b c) {e : ε} (threw : (b (trace s) c (value s)).threw = some e) :
    Undone strong s (log (update s c.operands (b (trace s) c (value s)).after) c) :=
  ⟨update_occupancy live _, fun strongly => (restores strongly).value_eq live threw⟩

theorem assignT_holds {dst : Loc} {v : Arg} (dstLive : s.occupancy.live dst = true)
    (srcLive : s.occupancy.live v.loc = true) (restores : strong → Restores b (.assign dst v)) :
    (assignT b dst v s).Holds (fun _ t => t.occupancy = s.occupancy)
    (fun _ t => Undone strong s t) := by
  have live : ∀ l ∈ (Call.assign dst v).operands, s.occupancy.live l = true := by
    simp [Call.operands, dstLive, srcLive]
  rw [assignT_eq, if_pos (by simp [value_isSome, dstLive, srcLive])]
  dsimp only
  cases threw : (b (trace s) (.assign dst v) (value s)).threw with
  | none => exact update_occupancy live _
  | some e => exact called_undone b strong live restores threw

theorem invokeSwap_holds {x y : Loc} (xLive : s.occupancy.live x = true)
    (yLive : s.occupancy.live y = true) :
    (invokeSwap b x y s).Holds (fun _ t => t.occupancy = s.occupancy)
      (fun _ t => t.occupancy = s.occupancy) := by
  have live : ∀ l ∈ (Call.swap x y).operands, s.occupancy.live l = true := by
    simp [Call.operands, xLive, yLive]
  rw [invokeSwap_eq, if_pos (by simp [value_isSome, xLive, yLive])]
  dsimp only
  cases (b (trace s) (.swap x y) (value s)).threw <;> exact update_occupancy live _

theorem create_holds {how : Init} {o : ObjId} {args : List Arg}
    (empty : s.occupancy.flag o = some false)
    (live : ∀ v ∈ args, s.occupancy.live v.loc = true)
    (restores : strong → Restores b (.construct how (.contained o) args)) :
    (create b how o args s).Holds (fun _ t => t.occupancy = s.occupancy.set o (some true))
      (fun _ t => Undone strong s t) := by
  have operands : ∀ l ∈ (Call.construct how (.contained o) args).operands,
    s.occupancy.live l = true := by
    simpa [Call.operands] using live
  have vacant : s.occupancy.live (.contained o) = false := by simp [Occupancy.live, empty]
  simp only [create, content_of_empty empty]
  rw [constructT_eq, if_neg (by simp [value_isSome, vacant]),
    if_pos (show (args.map Arg.loc).all _ = true from all_live operands)]
  dsimp only
  cases threw : (b (trace s) (.construct how (.contained o) args) (value s)).threw with
  | none =>
    change State.occupancy (State.setContent _ _ _) = _
    rw [setContent_occupancy]
    exact congrArg (fun k => Occupancy.set k o (some true)) (update_occupancy operands _)
  | some e => exact called_undone b strong operands restores threw

theorem clear_holds {o : ObjId} {init : Bool} (here : s.occupancy.flag o = some init)
    {E : ε → State α → Prop} :
    ((clear o : Doc α ε Unit) s).Holds (fun _ t => t.occupancy = s.occupancy.set o (some false)) E := by
  have mapped : (s.content o).map Option.isSome = some init := here
  simp only [clear]
  cases content : s.content o with
  | none => simp [content] at mapped
  | some c =>
    cases c with
    | none =>
      have empty : s.occupancy.flag o = some false := by simp [State.occupancy, content]
      exact (Occupancy.set_flag empty).symm
    | some v =>
      have live : (value s (.contained o)).isSome = true := by simp [value, State.value, content]
      simp only [destroyT_live live]
      exact setContent_occupancy s o (some none)

theorem appear_holds {o : ObjId} (absent : s.occupancy.flag o = none) :
    (appear o : Doc α ε Unit) s = .ok () (s.setContent o (some none)) := by
  simp only [appear, content_of_absent absent]

theorem vanish_holds {o : ObjId} (empty : s.occupancy.flag o = some false) :
    (vanish o : Doc α ε Unit) s = .ok () (s.setContent o none) := by
  simp only [vanish, content_of_empty empty]

end BoostOptional.Spec
