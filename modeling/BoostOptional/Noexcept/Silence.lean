import BoostOptional.Effect.Silent
import BoostOptional.Noexcept.Declared

/-!
The functions that are declared `noexcept` call only operations of `T` that do not throw, but for
the empty constructors and `reset(v)` of `tc_optional_base` and the swap of `optional.hpp`, which
call operations that their specifications do not ask about.
-/

namespace BoostOptional
open Effect Prog Memory

variable {α ε : Type} {n : Nothrow} {b : Behaviour α ε} {o this rhs x y : ObjId}

/-! ### The state and T's operations -/

theorem isInitialized_silent : Silent (isInitialized o : Code α ε Bool) := by
  intro w e t
  unfold isInitialized
  split <;> nofun

theorem born_silent {init : Bool} : Silent (born o init : Code α ε Unit) := by
  intro w e t
  unfold born
  split <;> nofun

theorem destroyT_silent {dst : Loc} : Silent (destroyT dst : Code α ε Unit) := by
  intro w e t
  unfold destroyT
  split <;> nofun

theorem vacant_silent {dst : Loc} : Silent (vacant dst : Code α ε Unit) := by
  intro w e t
  unfold vacant
  split <;> nofun

theorem settle_silent {reply : Reply α ε} (quiet : reply.threw = none) :
    Silent (settle reply : Code α ε Unit) := by
  unfold settle
  rw [quiet]
  exact silent_pure ()

theorem getLoc_silent : Silent (getLoc o : Code α ε Loc) :=
  silent_bind isInitialized_silent fun _ => silent_ite (fun _ => silent_pure _) fun _ => silent_fail _

section Calls

variable (respects : Respects n b)

include respects

theorem userCall_silent {c : Call} {next : Reply α ε → Code α ε Unit} (covered : n.covers c = true)
    (rest : ∀ reply : Reply α ε, reply.threw = none → Silent (next reply)) :
    Silent (userCall b c >>= next) := by
  intro w e t
  simp only [bind_apply, andThen, userCall]
  split
  · rename_i reply u run
    split at run
    · obtain ⟨rfl, rfl⟩ := Outcome.ok.inj run
      exact rest _ (respects _ _ _ covered) _ e t
    · cases run
  · rename_i run
    split at run <;> cases run
  · intro threw
    cases threw

theorem constructT_silent {how : Init} {dst : Loc} {args : List Arg}
    (covered : n.covers (.construct how dst args) = true) :
    Silent (constructT b how dst args : Code α ε Unit) :=
  silent_bind vacant_silent fun _ => userCall_silent respects covered fun _ quiet =>
    silent_bind (settle_silent quiet) fun _ => silent_write _

theorem assignT_silent {dst : Loc} {v : Arg} (covered : n.covers (.assign dst v) = true) :
    Silent (assignT b dst v : Code α ε Unit) :=
  userCall_silent respects covered fun _ quiet => settle_silent quiet

theorem invokeSwap_silent {x y : Loc} (quiet : n.swap = true) :
    Silent (invokeSwap b x y : Code α ε Unit) :=
  userCall_silent respects (c := .swap x y) quiet fun _ quiet => settle_silent quiet

theorem assignStorage_silent {v : Arg} (covered : n.covers (.assign (.contained o) v) = true) :
    Silent (Direct.assignStorage b o v) := by
  intro w e t
  unfold Direct.assignStorage
  dsimp only
  split
  · exact settle_silent (respects _ _ _ covered) _ e t
  · nofun

theorem placeStorage_silent {how : Init} {args : List Arg}
    (covered : n.covers (.construct how (.contained o) args) = true) :
    Silent (Direct.placeStorage b o how args) :=
  userCall_silent respects covered fun _ quiet => silent_bind (settle_silent quiet) fun _ =>
    silent_write _

end Calls

/-! ### detail/union_optional.hpp -/

namespace Union

variable (E : Element α)

theorem reset_silent : Silent (reset E this : Code α ε Unit) :=
  silent_ite (fun _ => silent_bind (silent_write _) fun _ => silent_write _) fun _ =>
    silent_bind isInitialized_silent fun _ =>
      silent_ite (fun _ => silent_bind destroyT_silent fun _ => silent_write _) fun _ => silent_pure ()

theorem destructor_silent : Silent (destructor E this : Code α ε Unit) :=
  silent_ite (fun _ => silent_bind (silent_write _) fun _ => silent_write _) fun _ =>
    silent_bind isInitialized_silent fun _ =>
      silent_ite (fun _ => silent_bind destroyT_silent fun _ => silent_write _) fun _ => silent_write _

theorem convertToReference_silent : Silent (convertToReference o : Code α ε (Option Loc)) :=
  silent_bind isInitialized_silent fun _ => silent_ite
    (fun _ => silent_bind
      (silent_bind isInitialized_silent fun _ => silent_ite (fun _ => silent_pure _) fun _ =>
        silent_fail _)
      fun _ => silent_pure _)
    fun _ => silent_pure _

section Calls

variable (respects : Respects n b)

include respects

theorem inPlaceStorage_silent {args : List Arg}
    (covered : n.covers (.construct .direct (.contained o) args) = true) :
    Silent (inPlaceStorage b o args) :=
  silent_bind born_silent fun _ => silent_onThrow (constructT_silent respects covered) _

theorem initializeT_silent {args : List Arg}
    (covered : n.covers (.construct .direct (.contained o) args) = true) :
    Silent (initializeT b o args) :=
  silent_bind (silent_bind isInitialized_silent fun _ =>
      silent_ite (fun _ => silent_fail _) fun _ => silent_pure ())
    fun _ => silent_bind (constructT_silent respects covered) fun _ => silent_write _

theorem moveCtor_silent (constexprCopy : Bool) (quiet : n.moveCtor = true) :
    Silent (moveCtor E b constexprCopy o rhs) := by
  refine silent_ite (fun _ => ?_) fun _ => ?_
  · exact silent_bind isInitialized_silent fun _ =>
      silent_ite (fun _ => inPlaceStorage_silent respects quiet) fun _ => born_silent
  · refine silent_bind born_silent fun _ => silent_onThrow ?_ _
    exact silent_bind isInitialized_silent fun _ =>
      silent_ite (fun _ => initializeT_silent respects quiet) fun _ => silent_pure ()

theorem moveAssign_silent (assigns : n.moveAssign = true) (constructs : n.moveCtor = true) :
    Silent (moveAssign E b this rhs) :=
  silent_bind isInitialized_silent fun _ => silent_ite
    (fun _ => silent_bind isInitialized_silent fun _ =>
      silent_ite (fun _ => assignT_silent respects assigns) fun _ => reset_silent E)
    fun _ => silent_bind isInitialized_silent fun _ =>
      silent_ite (fun _ => initializeT_silent respects constructs) fun _ => silent_pure ()

/-- Each specification of the union implementation asks for what its function calls. Those of the swaps
are false. -/
theorem declared_silent (constexprCopy : Bool) (f : Declared) (spec : f.noexcept n = true) :
    Silent (f.call E b constexprCopy this rhs) := by
  cases f with
  | defaultCtor | noneCtor => exact born_silent
  | moveCtor => exact moveCtor_silent E respects constexprCopy spec
  | moveAssign =>
    obtain ⟨assigns, constructs⟩ := Bool.and_eq_true_iff.mp spec
    exact moveAssign_silent E respects assigns constructs
  | assignNone | reset => exact reset_silent E
  | memberSwap | swap => simp [Declared.noexcept, derefNoexcept] at spec
  | convertToReference | convertToConstReference =>
    exact silent_bind convertToReference_silent fun _ => silent_pure ()
  | destructor => exact destructor_silent E

end Calls

end Union

/-! ### detail/optional_swap.hpp -/

section Selector

variable {ops : LegacyOps α ε} (respects : Respects n b) (swaps : n.swap = true)

include respects swaps

theorem optionalSwapMove_silent (assigns : ∀ o l, Silent (ops.assignFromT o ⟨l, .rvalue, .self⟩))
    (clears : ∀ o, Silent (ops.assignNone o)) : Silent (optionalSwapMove b ops x y) := by
  have moves : ∀ x y, Silent (do let l ← getLoc x; ops.assignFromT y ⟨l, .rvalue, .self⟩; ops.assignNone x) := fun x y =>
    silent_bind getLoc_silent fun l => silent_bind (assigns y l) fun _ => clears x
  refine silent_bind isInitialized_silent fun _ => silent_ite (fun _ => ?_) fun _ => ?_
  · refine silent_bind isInitialized_silent fun _ => silent_ite (fun _ => ?_) fun _ => moves x y
    exact silent_bind getLoc_silent fun _ => silent_bind getLoc_silent fun _ =>
      invokeSwap_silent respects swaps
  · exact silent_bind isInitialized_silent fun _ => silent_ite (fun _ => moves y x) fun _ =>
      silent_pure ()

theorem optionalSwapDefault_silent (emplaces : ∀ o, Silent (ops.emplace o []))
    (clears : ∀ o, Silent (ops.assignNone o)) :
    Silent (optionalSwapDefault b ops x y) := by
  have rest : ∀ hasX hasY : Bool, Silent (do
      let l ← getLoc x
      let r ← getLoc y
      invokeSwap b l r
      if !hasX then ops.assignNone y else if !hasY then ops.assignNone x else pure ()) := by
    intro hasX hasY
    refine silent_bind getLoc_silent fun _ => silent_bind getLoc_silent fun _ =>
      silent_bind (invokeSwap_silent respects swaps) fun _ => ?_
    exact silent_ite (fun _ => clears y) fun _ => silent_ite (fun _ => clears x) fun _ => silent_pure ()
  refine silent_bind isInitialized_silent fun hasX => silent_bind isInitialized_silent fun hasY =>
    silent_ite (fun _ => silent_pure ()) fun _ => ?_
  exact silent_ite (fun _ => silent_bind (emplaces x) fun _ => rest hasX hasY) fun _ =>
    silent_ite (fun _ => silent_bind (emplaces y) fun _ => rest hasX hasY) fun _ => rest hasX hasY

end Selector

/-! ### optional_base -/

namespace Aligned

theorem destroy_silent : Silent (destroy o : Code α ε Unit) :=
  silent_bind isInitialized_silent fun _ =>
    silent_ite (fun _ => silent_bind destroyT_silent fun _ => silent_write _) fun _ => silent_pure ()

section Calls

variable (respects : Respects n b)

include respects

theorem construct_silent {l : Loc} (quiet : n.moveCtor = true) :
    Silent (construct b o ⟨l, .rvalue, .self⟩) :=
  silent_bind (constructT_silent respects quiet) fun _ => silent_write _

theorem assignValue_silent {l : Loc} (quiet : n.moveAssign = true) :
    Silent (assignValue b o ⟨l, .rvalue, .self⟩) :=
  assignT_silent respects quiet

theorem assignFromT_silent {l : Loc} (constructs : n.moveCtor = true) (assigns : n.moveAssign = true) :
    Silent (assignFromT b o ⟨l, .rvalue, .self⟩) :=
  silent_bind isInitialized_silent fun _ =>
    silent_ite (fun _ => assignValue_silent respects assigns) fun _ =>
      construct_silent respects constructs

theorem moveCtor_silent (quiet : n.moveCtor = true) : Silent (moveCtor b o rhs) := by
  refine silent_bind born_silent fun _ => silent_onThrow ?_ _
  exact silent_bind isInitialized_silent fun _ =>
    silent_ite (fun _ => construct_silent respects quiet) fun _ => silent_pure ()

theorem moveAssign_silent (constructs : n.moveCtor = true) (assigns : n.moveAssign = true) :
    Silent (moveAssign b this rhs) :=
  silent_bind isInitialized_silent fun _ => silent_ite
    (fun _ => silent_bind isInitialized_silent fun _ =>
      silent_ite (fun _ => assignValue_silent respects assigns) fun _ => destroy_silent)
    fun _ => silent_bind isInitialized_silent fun _ =>
      silent_ite (fun _ => construct_silent respects constructs) fun _ => silent_pure ()

theorem emplace_silent (quiet : n.defaultCtor = true) : Silent (emplace b o []) :=
  silent_bind destroy_silent fun _ => silent_bind (constructT_silent respects quiet) fun _ =>
    silent_write _

theorem swap_silent {useDefault : Bool} (constructs : n.moveCtor = true) (assigns : n.moveAssign = true)
    (swaps : n.swap = true) (defaults : useDefault = true → n.defaultCtor = true) :
    Silent (swap b useDefault x y) :=
  silent_ite
    (fun chosen => optionalSwapDefault_silent respects swaps
      (fun _ => emplace_silent respects (defaults chosen))
      fun _ => destroy_silent)
    fun _ => optionalSwapMove_silent respects swaps
      (fun _ _ => assignFromT_silent respects constructs assigns)
      fun _ => destroy_silent

end Calls

end Aligned

/-! ### tc_optional_base -/

namespace Direct

section Calls

variable (respects : Respects n b)

include respects

theorem memberCtor_silent {init : Bool} {args : List Arg}
    (covered : n.covers (.construct .direct (.contained o) args) = true) :
    Silent (memberCtor b o init args) :=
  silent_bind born_silent fun _ => silent_onThrow (placeStorage_silent respects covered) _

theorem moveCtor_silent (quiet : n.moveCtor = true) : Silent (moveCtor b o rhs) :=
  silent_bind isInitialized_silent fun _ => memberCtor_silent respects quiet

theorem moveAssign_silent (quiet : n.moveAssign = true) : Silent (moveAssign b this rhs) :=
  silent_bind isInitialized_silent fun _ => silent_bind (silent_write _) fun _ =>
    assignStorage_silent respects quiet

theorem construct_silent {l : Loc} {cat : Cat} (quiet : n.copyAssign = true) :
    Silent (construct b o ⟨l, cat, .self⟩) :=
  silent_bind (assignStorage_silent respects quiet) fun _ => silent_write _

theorem emplace_silent (constructs : n.defaultCtor = true) (assigns : n.moveAssign = true) :
    Silent (emplace b o []) :=
  silent_bind
    (silent_bind (constructT_silent respects constructs) fun _ =>
      silent_bracket (assignStorage_silent respects assigns) destroyT_silent)
    fun _ => silent_write _

theorem swap_silent {useDefault : Bool} (assigns : n.moveAssign = true) (swaps : n.swap = true)
    (defaults : useDefault = true → n.defaultCtor = true)
    (copies : useDefault = false → n.copyAssign = true) :
    Silent (swap b useDefault x y) :=
  silent_ite
    (fun chosen => optionalSwapDefault_silent respects swaps
      (fun _ => emplace_silent respects (defaults chosen) assigns)
      fun _ => silent_write _)
    fun chosen => optionalSwapMove_silent respects swaps
      (fun _ _ => construct_silent respects (copies chosen))
      fun _ => silent_write _

end Calls

end Direct

end BoostOptional
