import BoostOptional.Noexcept.Silence
import BoostOptional.Storage.Determinate

/-!
Exactly when no exception escapes a function that is declared `noexcept`. The specifications of
`optional.hpp` leave out `T`'s own swap, the default constructor that a customized swap calls, and
for `tc_optional_base` the default constructor and the copy assignment.
-/

namespace BoostOptional
open Effect Prog Memory

variable {α ε : Type}

/-- A function of one of the implementations. `tcOptionalBase` is there for scalars and for the class
types that `optional_uses_direct_storage_for` admits. -/
inductive Declared where
  | union (constexprCopy : Bool) (f : Union.Declared)
  | optionalBase (useDefault : Bool) (f : Legacy.Declared)
  | tcOptionalBase (useDefault : Bool) (f : Legacy.Declared)
  deriving DecidableEq, Repr

namespace Declared

def noexcept (n : Nothrow) : Declared → Bool
  | union _ f => f.noexcept n
  | optionalBase _ f => Aligned.noexcept n f
  | tcOptionalBase _ f => Direct.noexcept n f

def call (E : Element α) (b : Behaviour α ε) (this rhs : ObjId) (src : Loc) : Declared → Code α ε Unit
  | union constexprCopy f => f.call E b constexprCopy this rhs
  | optionalBase useDefault f => Aligned.call b useDefault this rhs src f
  | tcOptionalBase useDefault f => Direct.call b useDefault this rhs src f

/-- The states that a program can be in between two operations. -/
def Between (w : World α) : Declared → Prop
  | union _ _ | optionalBase _ _ => w.Settled
  | tcOptionalBase _ _ => Direct.Determinate w

/-- If the specification is true, no run of the function raises an exception. -/
def Contains (E : Element α) (ε : Type) (n : Nothrow) (d : Declared) : Prop :=
  d.noexcept n = true → ∀ b : Behaviour α ε, Respects n b → ∀ (this rhs : ObjId) (src : Loc)
    (w : World α),
    d.Between w → ∀ e t, d.call E b this rhs src w ≠ .thrown e t

/-- `T`'s operations that the function calls and its specification does not ask about do not throw. -/
def holdsWhen (n : Nothrow) : Declared → Bool
  | optionalBase useDefault .memberSwap =>
    !(n.moveCtor && n.moveAssign) || (n.swap && (!useDefault || n.defaultCtor))
  | tcOptionalBase useDefault .memberSwap =>
    !(n.moveCtor && n.moveAssign) || (n.swap && if useDefault then n.defaultCtor else n.copyAssign)
  | tcOptionalBase _ .defaultCtor | tcOptionalBase _ .noneCtor => n.defaultCtor
  | tcOptionalBase _ .resetValue => n.copyAssign
  | _ => true

end Declared

/-! ### No exception -/

section Silent

variable {n : Nothrow} {b : Behaviour α ε} (respects : Respects n b) {this rhs : ObjId} {src : Loc}

include respects

theorem Aligned.declared_silent {useDefault : Bool} {f : Legacy.Declared}
    (spec : Aligned.noexcept n f = true)
    (holds : (Declared.optionalBase useDefault f).holdsWhen n = true) :
    Silent (Aligned.call b useDefault this rhs src f) := by
  cases f with
  | defaultCtor | noneCtor => exact born_silent
  | moveCtor => exact Aligned.moveCtor_silent respects spec
  | moveAssign =>
    obtain ⟨constructs, assigns⟩ := Bool.and_eq_true_iff.mp spec
    exact Aligned.moveAssign_silent respects constructs assigns
  | assignNone | reset => exact Aligned.destroy_silent
  | resetValue => cases spec
  | memberSwap =>
    obtain ⟨constructs, assigns⟩ := Bool.and_eq_true_iff.mp spec
    simp only [Declared.holdsWhen, constructs, assigns, Bool.and_self, Bool.not_true, Bool.false_or,
      Bool.and_eq_true,
      Bool.or_eq_true, Bool.not_eq_true'] at holds
    obtain ⟨swaps, defaults⟩ := holds
    refine Aligned.swap_silent respects constructs assigns swaps fun chosen => ?_
    rcases defaults with other | quiet
    · rw [chosen] at other
      cases other
    · exact quiet
  | destructor => exact silent_bind Aligned.destroy_silent fun _ => silent_write _

theorem Direct.declared_silent {useDefault : Bool} {f : Legacy.Declared}
    (spec : Direct.noexcept n f = true)
    (holds : (Declared.tcOptionalBase useDefault f).holdsWhen n = true) :
    Silent (Direct.call b useDefault this rhs src f) := by
  cases f with
  | defaultCtor | noneCtor => exact Direct.memberCtor_silent respects holds
  | moveCtor => exact Direct.moveCtor_silent respects spec
  | moveAssign => exact Direct.moveAssign_silent respects spec
  | assignNone | reset => exact silent_write _
  | resetValue => exact Direct.construct_silent respects holds
  | memberSwap =>
    obtain ⟨constructs, assigns⟩ := Bool.and_eq_true_iff.mp spec
    simp only [Declared.holdsWhen, constructs, assigns, Bool.and_self, Bool.not_true, Bool.false_or,
      Bool.and_eq_true] at holds
    obtain ⟨swaps, calls⟩ := holds
    refine Direct.swap_silent respects assigns swaps (fun chosen => ?_) fun chosen => ?_ <;>
      simpa [chosen] using calls
  | destructor => exact silent_write _

end Silent

theorem Declared.contains_of_holdsWhen {E : Element α} {n : Nothrow} {d : Declared}
    (holds : d.holdsWhen n = true) :
    d.Contains E ε n := by
  intro spec b respects this rhs src w _ e t
  cases d with
  | union constexprCopy f => exact Union.declared_silent E respects constexprCopy f spec w e t
  | optionalBase useDefault f => exact Aligned.declared_silent respects spec holds w e t
  | tcOptionalBase useDefault f => exact Direct.declared_silent respects spec holds w e t

/-! ### The exceptions that escape -/

variable [Inhabited α] [Inhabited ε]

def throwing (n : Nothrow) : Behaviour α ε := fun _ c values =>
  ⟨if n.covers c then none else some default, default, fun l => (values l).getD default⟩

theorem throwing_respects (n : Nothrow) : Respects n (throwing n : Behaviour α ε) := by
  intro trace c values covered
  simp [throwing, covered]

def twoOptionals (full : Bool) (unset : Cell α) : World α where
  flag o := if o = .named 0 then some full else if o = .named 1 then some true else none
  cell o := if o = .named 0 then if full then .live default else unset
    else if o = .named 1 then .live default else .vacant
  var _ := default
  scratch := none
  trace := []

omit [Inhabited ε] in
theorem twoOptionals_settled (full : Bool) : (twoOptionals full .vacant : World α).Settled where
  consistent o := by
    by_cases first : o = .named 0
    · cases full <;> simp [World.value, twoOptionals, first, Cell.value?]
    · by_cases second : o = .named 1
      · simp [World.value, twoOptionals, second, Cell.value?]
      · simp [World.value, twoOptionals, first, second, Cell.value?]
  scratch := rfl
  temporary := rfl

omit [Inhabited ε] in
theorem twoOptionals_determinate (full : Bool) :
    Direct.Determinate (twoOptionals full (.live default) : World α) where
  storage o := by
    by_cases first : o = .named 0
    · cases full <;> simp [World.value, twoOptionals, first, Cell.value?]
    · by_cases second : o = .named 1
      · simp [World.value, twoOptionals, second, Cell.value?]
      · simp [World.value, twoOptionals, first, second, Cell.value?]
  scratch := rfl

def Declared.Escapes (E : Element α) (b : Behaviour α ε) (d : Declared) : Prop :=
  ∃ (this rhs : ObjId) (src : Loc) (w : World α), d.Between w ∧
    ∃ e t, d.call E b this rhs src w = .thrown e t

section Escapes

variable {E : Element α} {n : Nothrow} {useDefault : Bool}

theorem optionalBase_swap_escapes (throws : n.swap = false) :
    (Declared.optionalBase useDefault .memberSwap).Escapes E (throwing n : Behaviour α ε) := by
  refine ⟨.named 0, .named 1, .var 0, twoOptionals true .vacant, twoOptionals_settled true, default, ?_⟩
  obtain ⟨defaultCtor, copyCtor, moveCtor, copyAssign, moveAssign, swap⟩ := n
  obtain rfl : swap = false := throws
  cases useDefault <;> exact ⟨_, rfl⟩

theorem optionalBase_swapDefault_escapes (throws : n.defaultCtor = false) :
    (Declared.optionalBase true .memberSwap).Escapes E (throwing n : Behaviour α ε) := by
  refine ⟨.named 0, .named 1, .var 0, twoOptionals false .vacant, twoOptionals_settled false,
    default, ?_⟩
  obtain ⟨defaultCtor, copyCtor, moveCtor, copyAssign, moveAssign, swap⟩ := n
  obtain rfl : defaultCtor = false := throws
  exact ⟨_, rfl⟩

theorem tcOptionalBase_ctor_escapes (throws : n.defaultCtor = false) {f : Legacy.Declared}
    (ctor : f = .defaultCtor ∨ f = .noneCtor) :
    (Declared.tcOptionalBase useDefault f).Escapes E (throwing n : Behaviour α ε) := by
  refine ⟨.named 2, .named 0, .var 0, twoOptionals true (.live default),
    twoOptionals_determinate true, default, ?_⟩
  obtain ⟨defaultCtor, copyCtor, moveCtor, copyAssign, moveAssign, swap⟩ := n
  obtain rfl : defaultCtor = false := throws
  rcases ctor with rfl | rfl <;> exact ⟨_, rfl⟩

theorem tcOptionalBase_resetValue_escapes (throws : n.copyAssign = false) :
    (Declared.tcOptionalBase useDefault .resetValue).Escapes E (throwing n : Behaviour α ε) := by
  refine ⟨.named 0, .named 0, .var 0, twoOptionals true (.live default),
    twoOptionals_determinate true, default, ?_⟩
  obtain ⟨defaultCtor, copyCtor, moveCtor, copyAssign, moveAssign, swap⟩ := n
  obtain rfl : copyAssign = false := throws
  exact ⟨_, rfl⟩

theorem tcOptionalBase_swap_escapes (throws : n.swap = false) :
    (Declared.tcOptionalBase useDefault .memberSwap).Escapes E (throwing n : Behaviour α ε) := by
  refine ⟨.named 0, .named 1, .var 0, twoOptionals true (.live default),
    twoOptionals_determinate true, default, ?_⟩
  obtain ⟨defaultCtor, copyCtor, moveCtor, copyAssign, moveAssign, swap⟩ := n
  obtain rfl : swap = false := throws
  cases useDefault <;> exact ⟨_, rfl⟩

theorem tcOptionalBase_oneSided_escapes (throws : (if useDefault then n.defaultCtor else n.copyAssign) = false) :
    (Declared.tcOptionalBase useDefault .memberSwap).Escapes E (throwing n : Behaviour α ε) := by
  -- The first optional has no value: it is default-constructed, or copy-assigned by `construct`.
  refine ⟨.named 0, .named 1, .var 0, twoOptionals false (.live default),
    twoOptionals_determinate false, default, ?_⟩
  obtain ⟨defaultCtor, copyCtor, moveCtor, copyAssign, moveAssign, swap⟩ := n
  cases useDefault with
  | true =>
    obtain rfl : defaultCtor = false := throws
    exact ⟨_, rfl⟩
  | false =>
    obtain rfl : copyAssign = false := throws
    exact ⟨_, rfl⟩

theorem Declared.escapes_of_not_holdsWhen {d : Declared} (fails : d.holdsWhen n = false) :
    d.noexcept n = true ∧ d.Escapes E (throwing n : Behaviour α ε) := by
  cases d with
  | union constexprCopy f => cases fails
  | optionalBase useDefault f =>
    cases f with
    | memberSwap =>
      simp only [holdsWhen, Bool.or_eq_false_iff, Bool.not_eq_false', Bool.and_eq_false_iff] at fails
      obtain ⟨spec, swaps | defaults⟩ := fails
      · exact ⟨spec, optionalBase_swap_escapes swaps⟩
      · obtain ⟨rfl, throws⟩ := defaults
        exact ⟨spec, optionalBase_swapDefault_escapes throws⟩
    | defaultCtor | noneCtor | moveCtor | moveAssign | assignNone | reset | resetValue | destructor =>
      cases fails
  | tcOptionalBase useDefault f =>
    cases f with
    | memberSwap =>
      simp only [holdsWhen, Bool.or_eq_false_iff, Bool.not_eq_false', Bool.and_eq_false_iff] at fails
      obtain ⟨spec, swaps | calls⟩ := fails
      · exact ⟨spec, tcOptionalBase_swap_escapes swaps⟩
      · exact ⟨spec, tcOptionalBase_oneSided_escapes calls⟩
    | defaultCtor => exact ⟨rfl, tcOptionalBase_ctor_escapes fails (.inl rfl)⟩
    | noneCtor => exact ⟨rfl, tcOptionalBase_ctor_escapes fails (.inr rfl)⟩
    | resetValue => exact ⟨rfl, tcOptionalBase_resetValue_escapes fails⟩
    | moveCtor | moveAssign | assignNone | reset | destructor => cases fails

end Escapes

/-- No exception escapes a function declared `noexcept` exactly when those of `T`'s operations do not
throw that it calls without asking. -/
theorem Declared.contains_iff (E : Element α) (n : Nothrow) (d : Declared) :
    d.Contains E ε n ↔ d.holdsWhen n = true := by
  refine ⟨fun contains => ?_, contains_of_holdsWhen⟩
  cases holds : d.holdsWhen n with
  | true => rfl
  | false =>
    obtain ⟨spec, this, rhs, src, w, between, e, t, thrown⟩ :=
      escapes_of_not_holdsWhen (E := E) (ε := ε) holds
    exact absurd thrown (contains spec (throwing n) (throwing_respects n) this rhs src w between e t)

/-- A class whose swap may throw, while its moves are `noexcept`. -/
theorem Declared.swap_not_contained :
    ¬ ∀ (E : Element Int) (n : Nothrow) (d : Declared), d.Contains E Unit n := by
  intro every
  have escapes : (Declared.optionalBase false .memberSwap).Escapes (.nontrivial Int)
      (throwing ⟨true, true, true, true, true, false⟩ : Behaviour Int Unit) :=
      optionalBase_swap_escapes rfl
  obtain ⟨this, rhs, src, w, between, e, t, thrown⟩ := escapes
  exact every (.nontrivial Int) ⟨true, true, true, true, true, false⟩
    (.optionalBase false .memberSwap) rfl _
    (throwing_respects _) this rhs src w between e t thrown

end BoostOptional
