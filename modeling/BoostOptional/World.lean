import BoostOptional.Element

/-!
The state of a program that uses optionals: for each optional object its flag and its storage,
and the user's own variables. Nothing here relates the flag to the storage. That they agree is
what the operations have to establish.
-/

namespace BoostOptional
open Effect Prog

/-- What the storage of an optional holds. `stale v` is a value that was given up without a
destructor call, `indeterminate` a `T` that nothing has given a value. -/
inductive Cell (α : Type) where
  | vacant
  | live (v : α)
  | stale (v : α)
  | indeterminate
  deriving DecidableEq, Repr

def Cell.value? {α : Type} : Cell α → Option α
  | .live v => some v
  | _ => none

/-- `flag o` is `none` when there is no optional object `o`. -/
structure World (α : Type) where
  flag : ObjId → Option Bool
  cell : ObjId → Cell α
  var : Nat → α
  scratch : Option α
  trace : List Call

variable {α ε : Type}

namespace World

def value (w : World α) : Loc → Option α
  | .contained o => (w.cell o).value?
  | .var x => some (w.var x)
  | .scratch => w.scratch

def setFlag (w : World α) (o : ObjId) (init : Option Bool) : World α :=
  { w with flag := fun p => if p = o then init else w.flag p }

def setCell (w : World α) (o : ObjId) (c : Cell α) : World α :=
  { w with cell := fun p => if p = o then c else w.cell p }

def update (w : World α) (operands : List Loc) (after : Loc → α) : World α :=
  { w with
    cell := fun o => if .contained o ∈ operands then .live (after (.contained o)) else w.cell o
    var := fun x => if .var x ∈ operands then after (.var x) else w.var x
    scratch := if .scratch ∈ operands then some (after .scratch) else w.scratch }

def place (w : World α) (l : Loc) (v : α) : World α :=
  match l with
  | .contained o => w.setCell o (.live v)
  | .var x => { w with var := fun y => if y = x then v else w.var y }
  | .scratch => { w with scratch := some v }

def vacate (w : World α) : Loc → World α
  | .contained o => w.setCell o .vacant
  | .var _ => w
  | .scratch => { w with scratch := none }

/-- The value in the storage of `o` is given up. Its type is trivially destructible, so this is
the end of its life although no destructor runs. -/
def giveUp (w : World α) (o : ObjId) : World α :=
  match w.cell o with
  | .live v => { w.setCell o (.stale v) with trace := .destroy (.contained o) :: w.trace }
  | _ => w

theorem update_value (w : World α) (operands : List Loc) (after : Loc → α) (l : Loc) :
    (w.update operands after).value l = if l ∈ operands then some (after l) else w.value l := by
  cases l <;> simp only [value, update] <;> split <;> rfl

theorem setFlag_value (w : World α) (o : ObjId) (init : Option Bool) (l : Loc) :
    (w.setFlag o init).value l = w.value l := by
  cases l <;> rfl

theorem setFlag_flag (w : World α) (o : ObjId) (init : Option Bool) :
    (w.setFlag o init).flag o = init := if_pos rfl

theorem setFlag_flag_other (w : World α) {o p : ObjId} (init : Option Bool) (other : p ≠ o) :
    (w.setFlag o init).flag p = w.flag p := if_neg other

theorem setCell_value (w : World α) (o : ObjId) (c : Cell α) {l : Loc} (other : l ≠ .contained o) :
    (w.setCell o c).value l = w.value l := by
  cases l with
  | contained p =>
    have apart : p ≠ o := fun same => other (congrArg Loc.contained same)
    simp only [World.value, World.setCell, if_neg apart]
  | scratch => rfl
  | var x => rfl

theorem setFlag_self {w : World α} {o : ObjId} {init : Option Bool} (same : w.flag o = init) :
    w.setFlag o init = w := by
  cases w
  simp only [setFlag, mk.injEq, and_true]
  funext p
  split
  · rename_i h
    rw [h, ← same]
  · rfl

theorem setFlag_setFlag (w : World α) (o : ObjId) (first second : Option Bool) :
    (w.setFlag o first).setFlag o second = w.setFlag o second := by
  simp only [setFlag, mk.injEq, and_true]
  funext p
  split <;> rfl

theorem setCell_self (w : World α) (o : ObjId) : w.setCell o (w.cell o) = w := by
  cases w
  simp only [setCell, mk.injEq, true_and, and_true]
  funext p
  split
  · rename_i h
    rw [h]
  · rfl

theorem giveUp_empty {w : World α} {o : ObjId} (empty : (w.cell o).value? = none) : w.giveUp o = w := by
  unfold giveUp
  cases cell : w.cell o <;> simp_all [Cell.value?]

end World

instance : Memory (World α) α where
  value := World.value
  update := World.update
  place := World.place
  vacate := World.vacate
  trace := World.trace
  log w c := { w with trace := c :: w.trace }

theorem World.log_value (w : World α) (c : Call) (l : Loc) :
    World.value (Memory.log w c) l = w.value l := by
  cases l <;> rfl

theorem World.called_value (w : World α) (operands : List Loc) (after : Loc → α) (c : Call) (l : Loc) :
    World.value (Memory.log (Memory.update w operands after) c) l = if l ∈ operands then
      some (after l) else w.value l :=
  (log_value _ c l).trans (update_value w operands after l)

theorem World.place_value (w : World α) (dst l : Loc) (v : α) :
    (Memory.place w dst v).value l = if l = dst then some v else w.value l := by
  cases dst <;> cases l <;> simp only [Memory.place, World.place, World.value, World.setCell, reduceCtorEq, if_false,
    if_true, Loc.contained.injEq, Loc.var.injEq] <;> split <;> rfl

/-- The programs of the implementations. -/
abbrev Code (α ε β : Type) : Type := Prog (World α) ε Fault β

def isInitialized (o : ObjId) : Code α ε Bool := fun w =>
  match w.flag o with
  | some init => .ok init w
  | none => .fault (.noObject o)

theorem isInitialized_eq {w : World α} {o : ObjId} {init : Bool} (flag : w.flag o = some init) :
    (isInitialized o : Code α ε Bool) w = .ok init w := by
  simp only [isInitialized, flag]

def setInit (o : ObjId) (init : Bool) : Code α ε Unit := write fun w => w.setFlag o (some init)

/-- Storage for a new optional object, with its flag initialized. -/
def born (o : ObjId) (init : Bool) : Code α ε Unit := fun w =>
  match w.flag o with
  | none => .ok () (w.setFlag o (some init))
  | some _ => .fault (.objectExists o)

/-- The storage of `o` is released. No destructor runs here. -/
def release (o : ObjId) : Code α ε Unit := write fun w => w.setFlag o none

/-- What `T`'s assignment and a built-in assignment have in common. -/
def assignment (b : Behaviour α ε) (dst : Loc) (v : Arg) : Code α ε Unit := fun w =>
  settle (b w.trace (.assign dst v) w.value)
    (Memory.log (Memory.update w [dst, v.loc] (b w.trace (.assign dst v) w.value).after)
      (.assign dst v))

theorem assignT_eq_assignment {b : Behaviour α ε} {dst : Loc} {v : Arg} {w : World α}
    (dstLive : (w.value dst).isSome = true) (live : (w.value v.loc).isSome = true) :
    assignT b dst v w = assignment b dst v w := by
  unfold assignment settle
  cases threw : (b w.trace (.assign dst v) w.value).threw with
  | none => exact assignT_returns dstLive live threw
  | some e => exact assignT_throws dstLive live threw

theorem constructT_setFlag (b : Behaviour α ε) (how : Init) (dst : Loc) (args : List Arg) (w : World α)
    (o : ObjId) (init : Option Bool) :
    constructT b how dst args (w.setFlag o init) =
      (constructT b how dst args w).mapState (fun w => w.setFlag o init) := by
  have values : Memory.value (w.setFlag o init) = Memory.value w := by
    funext l
    cases l <;> rfl
  have traces : Memory.trace (w.setFlag o init) = Memory.trace w := rfl
  simp only [constructT_eq, values, traces]
  split
  · rfl
  · split
    · split
      · rfl
      · cases dst <;> rfl
    · rfl

/-- The flag of every optional tells whether a `T` lives in its storage. -/
def World.Consistent (w : World α) : Prop :=
  ∀ o, (w.value (.contained o)).isSome = true ↔ w.flag o = some true

end BoostOptional
