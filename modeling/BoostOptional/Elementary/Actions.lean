import BoostOptional.Effect.Decomposition
import BoostOptional.Direct
import BoostOptional.Noexcept.Silence

/-!
The elementary actions of the implementations: a call of one of `T`'s operations, or a change of a
flag or of a storage. This file says for each what it is allowed to change, and takes the functions
that all implementations share apart into actions.
-/

namespace BoostOptional
open Effect Prog Memory

inductive Action where
  | construct (how : Init) (dst : Loc) (args : List Arg)
  | assign (dst : Loc) (v : Arg)
  | swap (x y : Loc)
  | destroy (dst : Loc)
  | giveUp (o : ObjId)
  | born (o : ObjId) (init : Bool)
  | setInit (o : ObjId) (init : Bool)
  | release (o : ObjId)
  | assignStorage (o : ObjId) (v : Arg)
  | placeStorage (o : ObjId) (how : Init) (args : List Arg)
  | leaveStorage (o : ObjId)
  | releaseStorage (o : ObjId)
  deriving DecidableEq, Repr

namespace Action

/-- The call of `T`'s operation. -/
def call : Action → Option Call
  | construct how dst args => some (.construct how dst args)
  | assign dst v => some (.assign dst v)
  | swap x y => some (.swap x y)
  | destroy dst => some (.destroy dst)
  | giveUp o => some (.destroy (.contained o))
  | assignStorage o v => some (.assign (.contained o) v)
  | placeStorage o how args => some (.construct how (.contained o) args)
  | _ => none

/-- The actions on a storage that holds a `T` all the time. -/
def onStorage : Action → Bool
  | assignStorage .. | placeStorage .. | leaveStorage _ | releaseStorage _ => true
  | _ => false

/-- The optionals whose flag may change. -/
def flags : Action → List ObjId
  | born o _ | setInit o _ | release o | releaseStorage o => [o]
  | _ => []

/-- The places whose value may change. -/
def places : Action → List Loc
  | construct _ dst args => dst :: args.map Arg.loc
  | assign dst v => [dst, v.loc]
  | swap x y => [x, y]
  | destroy dst => [dst]
  | giveUp o | leaveStorage o | releaseStorage o => [.contained o]
  | assignStorage o v => [.contained o, v.loc]
  | placeStorage o _ args => .contained o :: args.map Arg.loc
  | born .. | setInit .. | release .. => []

end Action

section Elementary

variable {α ε : Type} (b : Behaviour α ε)

def Action.exec : Action → Code α ε Unit
  | .construct how dst args => constructT b how dst args
  | .assign dst v => assignT b dst v
  | .swap x y => invokeSwap b x y
  | .destroy dst => destroyT dst
  | .giveUp o => write fun w => w.giveUp o
  | .born o init => BoostOptional.born o init
  | .setInit o init => BoostOptional.setInit o init
  | .release o => BoostOptional.release o
  | .assignStorage o v => Direct.assignStorage b o v
  | .placeStorage o how args => Direct.placeStorage b o how args
  | .leaveStorage o => write fun w => w.setCell o .indeterminate
  | .releaseStorage o => Direct.releaseStorage o

/-- A value is given up when there is one. -/
def Action.Enabled (w : World α) : Action → Prop
  | .giveUp o => (w.value (.contained o)).isSome = true
  | _ => True

def elementary : System (World α) ε Fault Action where
  exec := Action.exec b
  legal act w := act.Enabled w

/-- Programs made of the actions in `P`. -/
abbrev Uses (P : Action → Prop) {β : Type} (c : Code α ε β) : Prop := MadeOf (elementary b) P c

variable {b} {P : Action → Prop}

theorem uses_action (act : Action) (allowed : P act) (always : ∀ w : World α, act.Enabled w) :
    Uses b P (act.exec b) :=
  madeOf_exec (M := elementary b) act allowed always

theorem giveUp_uses {o : ObjId} (allowed : P (.giveUp o)) :
    Uses b P (write fun w => w.giveUp o : Code α ε Unit) := by
  intro w
  by_cases live : (w.value (.contained o)).isSome = true
  · have step : ((elementary b).exec (.giveUp o) w).Ends (none : Option ε) (w.giveUp o) := ⟨rfl, rfl⟩
    exact .single allowed live step
  · have empty : (w.cell o).value? = none := by simpa [World.value] using live
    rw [write_apply, World.giveUp_empty empty]
    exact .refl w

/-- The optional `o` may be created, emptied, marked and released. -/
structure Administers (P : Action → Prop) (o : ObjId) : Prop where
  destroy : P (.destroy (.contained o))
  giveUp : P (.giveUp o)
  born : ∀ init, P (.born o init)
  setInit : ∀ init, P (.setInit o init)
  release : P (.release o)

/-- And its storage, which holds a `T` all the time, may be left alone and released. -/
structure Direct.Administers (P : Action → Prop) (o : ObjId) : Prop extends
    BoostOptional.Administers P o where
  leaveStorage : P (.leaveStorage o)
  releaseStorage : P (.releaseStorage o)

/-- What a parameter of type `T const&` or `T&&` is bound to. -/
def Arg.received (v : Arg) : Arg :=
  match v.ty with
  | .self => { v with cat := v.cat.bound }
  | _ => ⟨.scratch, .rvalue, .self⟩

/-- The argument `v` may be converted to a temporary `T`. -/
structure Converting (P : Action → Prop) (v : Arg) : Prop where
  construct : v.ty ≠ .self → P (.construct .implicit .scratch [v])
  destroy : v.ty ≠ .self → P (.destroy .scratch)

theorem Converting.own {v : Arg} (self : v.ty = .self) : Converting P v :=
  ⟨fun other => (other self).elim, fun other => (other self).elim⟩

variable {o : ObjId}

theorem isInitialized_uses : Uses b P (isInitialized o : Code α ε Bool) := by
  refine madeOf_reads fun w => ?_
  unfold isInitialized
  cases w.flag o with
  | none => exact .inr ⟨_, rfl⟩
  | some init => exact .inl ⟨init, rfl⟩

theorem whenInitialized_uses {β : Type} {yes no : Code α ε β} (then_ : Uses b P yes)
    (else_ : Uses b P no) :
    Uses b P (do if ← isInitialized o then yes else no) :=
  madeOf_bind isInitialized_uses fun _ => madeOf_ite (fun _ => then_) fun _ => else_

/-- What follows `get()` works on the contained value. -/
theorem getLoc_uses {β : Type} {next : Loc → Code α ε β} (rest : Uses b P (next (.contained o))) :
    Uses b P (getLoc o >>= next) := by
  have same : (getLoc o >>= next) =
      (do if ← isInitialized o then next (.contained o) else fail .assertion : Code α ε β) := by
    funext w
    simp only [getLoc, bind_apply, andThen]
    cases isInitialized o w with
    | ok init t => cases init <;> rfl
    | thrown | fault => rfl
  rw [same]
  exact whenInitialized_uses rest (madeOf_fail _)

theorem innerHasValue_uses (hasValue : α → Bool) (l : Loc) :
    Uses b P (innerHasValue hasValue l : Code α ε Bool) := by
  refine madeOf_reads fun w => ?_
  unfold innerHasValue
  cases value w l with
  | none => exact .inr ⟨_, rfl⟩
  | some v => exact .inl ⟨hasValue v, rfl⟩

theorem bindParam_uses {v : Arg} {body : Arg → Code α ε Unit} (converts : Converting P v)
    (inner : Uses b P (body v.received)) : Uses b P (bindParam b v body) := by
  obtain ⟨loc, cat, ty⟩ := v
  cases ty with
  | self => exact inner
  | other | inner =>
    refine madeOf_bind (uses_action (.construct .implicit .scratch _) (converts.construct nofun)
      fun _ => trivial) fun _ => ?_
    exact madeOf_bracket inner (uses_action (.destroy .scratch) (converts.destroy nofun)
      fun _ => trivial) destroyT_silent

end Elementary

end BoostOptional
