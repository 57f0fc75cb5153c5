import BoostOptional.Equivalence.Renaming
import BoostOptional.Safety.Exceptions

/-!
The union implementation and `optional_base` call `T` in the same way. What a run shows is every
exception, and at its end the flags, the values and the calls of `T`. The two implementations and the
reference show the same, except that the union implementation hands a `T&` on to `T` where the
others bind it to a `T const&`.
-/

namespace BoostOptional
open Effect Prog Memory

variable {α ε : Type}

structure Observation (α : Type) where
  flag : ObjId → Option Bool
  value : Loc → Option α
  calls : List Call

/-- `see` tells how a call is seen. -/
def World.observe (see : Call → Call) (w : World α) : Observation α :=
  ⟨w.flag, w.value, w.trace.map see⟩

/-- The swap of `optional_swap.hpp` is not customized. -/
def Impl.Uncustomized : Impl → Prop
  | .union _ => True
  | .aligned useDefault => useDefault = false

/-- No `T` is passed as a `T&` to the constructor or the assignment from a value. -/
def Op.NoLvalue : Op → Prop
  | .valueCtor _ _ cat | .assignFromT _ _ cat => cat ≠ .lvalue
  | op => op.OfT

theorem Op.NoLvalue.ofT {op : Op} (noLvalue : op.NoLvalue) : op.OfT := by
  cases op <;> trivial

namespace Spec

def State.observe (see : Call → Call) (s : State α) : Observation α :=
  ⟨s.occupancy.flag, s.value, s.trace.map see⟩

def State.initial (var : Nat → α) : State α := ⟨fun _ => none, var, none, []⟩

variable (b : Behaviour α ε)

/-- The overloads of the reference: a `T` comes as a `T const&` or a `T&&`, and swap moves. -/
def documented : Style α ε := ⟨.bound, assignValue b .bound .bound, swap b⟩

def system (S : Style α ε) : System (State α) ε Fault Op where
  exec := exec b S
  legal op s := Legal op s.occupancy

/-- What a program that keeps to `C` shows when optionals are as in the reference. -/
def Shows (S : Style α ε) (C : Op → Prop) (see : Call → Call) (var : Nat → α)
    (events : List (Op × Option ε))
    (seen : Observation α) : Prop :=
  ((system b S).restrict fun op _ => C op).Shows (State.observe see) (State.initial var) events seen

end Spec

def Impl.Shows (E : Element α) (b : Behaviour α ε) (impl : Impl) (C : Op → Prop) (see : Call → Call)
    (var : Nat → α)
    (events : List (Op × Option ε)) (seen : Observation α) : Prop :=
  ((impl.system E b).restrict fun op _ => C op).Shows (World.observe see)
    (World.initial var) events seen

/-- The implementations show the same, and what the reference shows. -/
def TraceEquivalent (E : Element α) (b : Behaviour α ε) (C : Op → Prop) (see : Call → Call) : Prop :=
  ∀ (constexprCopy : Bool) (var : Nat → α) (events : List (Op × Option ε)) (seen : Observation α),
    ((Impl.union constexprCopy).Shows E b C see var events seen ↔
      (Impl.aligned false).Shows E b C see var events seen) ∧
    ((Impl.aligned false).Shows E b C see var events seen ↔
      Spec.Shows b (Spec.documented b) C see var events seen)

/-! ### Each implementation and the document in its style -/

variable {b : Behaviour α ε} {E : Element α}

theorem Represents.legal_back {w : World α} {s : Spec.State α} (rep : Represents w s) {op : Op}
    (legal : Spec.Legal op s.occupancy) : op.Legal w := by
  obtain ⟨creates, objects, sources⟩ := legal
  refine ⟨fun o member => ?_, fun o member => ?_, fun l member => ?_⟩
  · rw [rep.flag_eq, creates o member]
  · rw [rep.flag_eq]
    exact Option.ne_none_iff_exists'.mpr (objects o member)
  · change (value w l).isSome = true
    rw [rep.value_eq, Spec.value_isSome]
    exact sources l member

theorem Represents.observe_eq {w : World α} {s : Spec.State α} (rep : Represents w s)
    (see : Call → Call) :
    w.observe see = s.observe see := by
  have flags : w.flag = s.occupancy.flag := funext rep.flag_eq
  have values : w.value = s.value := rep.value_eq
  unfold World.observe Spec.State.observe
  rw [flags, values, rep.trace]

theorem Impl.ends_free (impl : Impl) {op : Op} {w w' : World α} {raised : Option ε}
    (settled : w.Settled)
    (legal : op.Legal w) (ends : (impl.exec E b op w).Ends raised w') : op.SelfFree := by
  -- An operation that comes to its end does not refer to the value it replaces.
  by_contra own
  have replaces : ∃ this, op.replaces = some this := by
    cases op <;> first | exact ⟨_, rfl⟩ | exact (own trivial).elim
  obtain ⟨this, replaces⟩ := replaces
  obtain ⟨f, faults⟩ := own_argument_faults b E impl replaces settled legal own
  rw [faults] at ends
  exact ends

theorem Impl.shows_style (impl : Impl) (C : Op → Prop) (see : Call → Call) (var : Nat → α)
    (events : List (Op × Option ε)) (seen : Observation α) :
    impl.Shows E b C see var events seen ↔
      Spec.Shows b (Spec.style b E impl) C see var events seen := by
  have exec : ∀ {op : Op} {w : World α} {s : Spec.State α}, Represents w s → s.Quiet → op.Legal w →
    op.SelfFree →
      (Spec.exec b (Spec.style b E impl) op s).Holds (fun _ => Spec.State.Quiet)
        (fun _ => Spec.State.Quiet) ∧
      (impl.exec E b op w).Match (fun w s => Represents w s ∧ s.Quiet)
      (Spec.exec b (Spec.style b E impl) op s) := by
    intro op w s rep quiet legal free
    have safe := Spec.exec_quiet b E impl quiet (rep.legal legal) free
    exact ⟨safe, (impl.exec_implements E b op legal.fresh w s rep).strengthen safe⟩
  refine System.shows_iff (R := fun w s => Represents w s ∧ s.Quiet) ?_ ?_
    (fun w s related => related.1.observe_eq see) ?_
  · intro op w s raised w' related legal ends
    obtain ⟨rep, quiet⟩ := related
    have free := impl.ends_free (rep.settled quiet) legal.1 ends
    obtain ⟨safe, matched⟩ := exec rep quiet legal.1 free
    have back := matched.flip (safe.mono (fun _ _ _ => trivial) (fun _ _ _ => trivial))
    exact ⟨⟨rep.legal legal.1, legal.2⟩, back.ends ends⟩
  · intro op w s raised s' related legal ends
    obtain ⟨rep, quiet⟩ := related
    have legal' := rep.legal_back legal.1
    obtain ⟨w', ends', -⟩ := (impl.exec_implements E b op legal'.fresh w s rep).ends ends
    have free := impl.ends_free (rep.settled quiet) legal' ends'
    exact ⟨⟨legal', legal.2⟩, (exec rep quiet legal' free).2.ends ends⟩
  · exact ⟨consistent_represents (World.initial_settled var).consistent,
      (World.initial_settled var).document_quiet⟩

theorem Spec.Renamed.occupancy {s t : Spec.State α} (renamed : Spec.Renamed s t) :
    s.occupancy = t.occupancy := by
  unfold Spec.State.occupancy
  rw [renamed.content, renamed.scratch]

theorem Spec.Renamed.legal {s t : Spec.State α} (renamed : Spec.Renamed s t) {op : Op}
    (legal : Spec.Legal op s.occupancy) : Spec.Legal op t.occupancy := by
  rw [← renamed.occupancy]
  exact legal

theorem Spec.Renamed.observe_eq {s t : Spec.State α} (renamed : Spec.Renamed s t) :
    s.observe Call.bound = t.observe Call.bound := by
  have values : s.value = t.value := renamed.value_eq
  unfold Spec.State.observe
  rw [renamed.occupancy, values, renamed.trace]

/-! ### The styles and the reference -/

theorem Spec.Passing.arg_other (p : Spec.Passing) {v : Arg} (other : v.cat ≠ .lvalue) :
    p.arg v = v := by
  obtain ⟨loc, cat, ty⟩ := v
  cases p with
  | forwarded => rfl
  | bound =>
    cases cat with
    | lvalue => exact (other rfl).elim
    | constLvalue | rvalue => rfl

theorem Spec.createFrom_bound (o : ObjId) {v : Arg} (self : v.ty = .self) (other : v.cat ≠ .lvalue) :
    Spec.createFrom b .forwarded o v = Spec.createFrom b .bound o v := by
  unfold Spec.createFrom
  rw [Spec.pass_eq .forwarded self, Spec.pass_eq .bound self, Spec.Passing.arg_other _ other,
    Spec.Passing.arg_other _ other]

theorem Spec.updateFrom_bound (o : ObjId) {v : Arg} (self : v.ty = .self) (other : v.cat ≠ .lvalue) :
    Spec.updateFrom b .forwarded o v = Spec.updateFrom b .bound o v := by
  unfold Spec.updateFrom
  rw [Spec.pass_eq .forwarded self, Spec.pass_eq .bound self, Spec.Passing.arg_other _ other,
    Spec.Passing.arg_other _ other]

section Styles

variable (isClass : E.isScalar = false) (plain : E.hasValue = none)

include isClass plain

theorem Spec.unionAssignFromT_eq :
    Spec.unionAssignFromT b E = Spec.assignValue b .forwarded .forwarded := by
  funext this v
  unfold Spec.unionAssignFromT
  rw [isClass, plain]
  rfl

theorem Spec.style_primary {impl : Impl} (uncustomized : impl.Uncustomized) :
    Spec.Primary b (Spec.style b E impl) := by
  cases impl with
  | union _ => exact ⟨⟨_, _, Spec.unionAssignFromT_eq isClass plain⟩, rfl⟩
  | aligned useDefault =>
    cases uncustomized
    exact ⟨⟨_, _, rfl⟩, rfl⟩

theorem Spec.exec_documented {impl : Impl} (uncustomized : impl.Uncustomized) {op : Op}
    (noLvalue : op.NoLvalue) :
    Spec.exec b (Spec.style b E impl) op = Spec.exec b (Spec.documented b) op := by
  cases impl with
  | aligned useDefault =>
    cases uncustomized
    rfl
  | union _ =>
    have assigns := Spec.unionAssignFromT_eq (b := b) isClass plain
    cases op with
    | valueCtor o src cat =>
      have other : cat ≠ .lvalue := noLvalue
      simp only [Spec.exec, Spec.style, Spec.documented, Spec.createFrom_bound, other, ne_eq,
        not_false_eq_true]
    | assignFromT this src cat =>
      have other : cat ≠ .lvalue := noLvalue
      simp only [Spec.exec, Spec.style, Spec.documented, assigns, Spec.assignValue,
        Spec.createFrom_bound,
        Spec.updateFrom_bound, other, ne_eq, not_false_eq_true]
    | resetValue =>
      simp only [Spec.exec, Spec.style, Spec.documented, assigns, Spec.assignValue,
        Spec.createFrom_bound,
        Spec.updateFrom_bound, ne_eq, reduceCtorEq, not_false_eq_true]
    | copyCtor | moveCtor =>
      simp only [Spec.exec, Spec.style, Spec.documented, Spec.newFrom, Spec.createFrom_bound, ne_eq,
        reduceCtorEq,
        not_false_eq_true]
    | copyAssign | moveAssign =>
      simp only [Spec.exec, Spec.style, Spec.documented, Spec.assignFrom, Spec.createFrom_bound,
        Spec.updateFrom_bound,
        ne_eq, reduceCtorEq, not_false_eq_true]
    | convCopyCtor | convMoveCtor | exprCtor | assignFromU | convCopyAssign | convMoveAssign =>
      exact noLvalue.elim
    | _ => rfl

theorem Spec.shows_noLvalue {impl : Impl} (uncustomized : impl.Uncustomized) (var : Nat → α)
    (events : List (Op × Option ε)) (seen : Observation α) :
    Spec.Shows b (Spec.style b E impl) Op.NoLvalue id var events seen ↔
      Spec.Shows b (Spec.documented b) Op.NoLvalue id var events seen := by
  have same : ∀ {op : Op}, op.NoLvalue →
    Spec.exec b (Spec.style b E impl) op = Spec.exec b (Spec.documented b) op :=
    Spec.exec_documented isClass plain uncustomized
  refine System.shows_iff (R := Eq) ?_ ?_ (fun s t related => related ▸ rfl) rfl
  · intro op s t raised s' related legal ends
    subst related
    refine ⟨legal, s', ?_, rfl⟩
    change ((Spec.exec b (Spec.documented b) op) s).Ends raised s'
    rw [← same legal.2]
    exact ends
  · intro op s t raised s' related legal ends
    subst related
    refine ⟨legal, s', ?_, rfl⟩
    change ((Spec.exec b (Spec.style b E impl) op) s).Ends raised s'
    rw [same legal.2]
    exact ends

theorem Spec.shows_copies (copies : CopiesLvalues b) {impl : Impl}
    (uncustomized : impl.Uncustomized) (var : Nat → α)
    (events : List (Op × Option ε)) (seen : Observation α) :
    Spec.Shows b (Spec.style b E impl) Op.OfT Call.bound var events seen ↔
      Spec.Shows b (Spec.documented b) Op.OfT Call.bound var events seen := by
  -- When `T` does not tell a `T&` from a `T const&`, neither does the style of passing.
  have style := Spec.style_primary (b := b) isClass plain uncustomized
  have reference : Spec.Primary b (Spec.documented b) := ⟨⟨_, _, rfl⟩, rfl⟩
  refine System.shows_iff (R := Spec.Renamed) ?_ ?_ (fun s t renamed => renamed.observe_eq) rfl
  · intro op s t raised s' renamed legal ends
    obtain ⟨t', ends', after⟩ :=
      (Spec.exec_follows copies reference style legal.2 t s renamed.symm).ends ends
    exact ⟨⟨renamed.legal legal.1, legal.2⟩, t', ends', after.symm⟩
  · intro op s t raised t' renamed legal ends
    obtain ⟨s', ends', after⟩ :=
      (Spec.exec_follows copies style reference legal.2 s t renamed).ends ends
    exact ⟨⟨renamed.symm.legal legal.1, legal.2⟩, s', ends', after⟩

end Styles

/-! ### Both implementations and the reference -/

theorem TraceEquivalent.of_document {C : Op → Prop} {see : Call → Call}
    (document : ∀ {impl : Impl}, impl.Uncustomized → ∀ var events seen,
      Spec.Shows b (Spec.style b E impl) C see var events seen ↔
        Spec.Shows b (Spec.documented b) C see var events seen) : TraceEquivalent E b C see := by
  intro constexprCopy var events seen
  have shows_iff : ∀ impl : Impl, impl.Uncustomized →
      (impl.Shows E b C see var events seen ↔
        Spec.Shows b (Spec.documented b) C see var events seen) := by
    intro impl uncustomized
    exact (impl.shows_style C see var events seen).trans (document uncustomized var events seen)
  have union := shows_iff (.union constexprCopy) trivial
  have aligned := shows_iff (.aligned false) rfl
  exact ⟨union.trans aligned.symm, aligned⟩

/-- Every run of `optional_base` is one of the reference. So is every run of the union implementation, as
long as no `T&` is passed or `T` does not tell it from a `T const&`. -/
theorem Impl.trace_equivalent (isClass : E.isScalar = false) (plain : E.hasValue = none) :
    (∀ (var : Nat → α) (events : List (Op × Option ε)) (seen : Observation α),
      (Impl.aligned false).Shows E b Op.OfT id var events seen ↔
        Spec.Shows b (Spec.documented b) Op.OfT id var events seen) ∧
    TraceEquivalent E b Op.NoLvalue id ∧
    (CopiesLvalues b → TraceEquivalent E b Op.OfT Call.bound) := by
  refine ⟨?_, ?_, ?_⟩
  · intro var events seen
    exact Impl.shows_style (.aligned false) Op.OfT id var events seen
  · exact .of_document fun uncustomized var events seen =>
      Spec.shows_noLvalue isClass plain uncustomized var events seen
  · intro copies
    exact .of_document fun uncustomized var events seen =>
      Spec.shows_copies isClass plain copies uncustomized var events seen

def copying : Behaviour Int Unit := intLike fun _ _ => none

theorem copying_copiesLvalues : CopiesLvalues copying := by
  intro trace call values
  unfold copying
  generalize trace.map Call.bound = calls
  unfold Call.bound
  split <;> simp [intLike, Arg.bound_loc]

/-- A swap that moves a value across, and the copy of a variable. -/
theorem Impl.trace_equivalent_swap :
    (∃ seen : Observation Int, seen.flag (.named 1) = some true ∧
      (Impl.aligned false).Shows (.nontrivial Int) copying Op.NoLvalue id (fun _ => 1)
        [(.valueCtor 0 (.var 0) .rvalue, none), (.defaultCtor 1, none), (.swap 0 1, none)] seen) ∧
    ∃ seen : Observation Int, seen.value (.contained (.named 0)) = some 1 ∧
      Spec.Shows copying (Spec.documented copying) Op.OfT Call.bound (fun _ => 1)
        [(.valueCtor 0 (.var 0) .lvalue, none)] seen := by
  have equivalent := Impl.trace_equivalent (b := copying) (E := .nontrivial Int) rfl rfl
  constructor
  · obtain ⟨seen, flag, shown⟩ : ∃ seen : Observation Int, seen.flag (.named 1) = some true ∧
        (Impl.union false).Shows (.nontrivial Int) copying Op.NoLvalue id (fun _ => 1)
          [(.valueCtor 0 (.var 0) .rvalue, none), (.defaultCtor 1, none), (.swap 0 1, none)] seen :=
      ⟨_, rfl, _, .cons ⟨by decide, nofun⟩ ⟨rfl, rfl⟩
        (.cons ⟨by decide, trivial⟩ ⟨rfl, rfl⟩ (.cons ⟨by decide, trivial⟩ ⟨rfl, rfl⟩ (.nil _))), rfl⟩
    exact ⟨seen, flag, (equivalent.2.1 false _ _ _).1.mp shown⟩
  · obtain ⟨seen, value, shown⟩ : ∃ seen : Observation Int,
        seen.value (.contained (.named 0)) = some 1 ∧
        (Impl.aligned false).Shows (.nontrivial Int) copying Op.OfT Call.bound
          (fun _ => 1) [(.valueCtor 0 (.var 0) .lvalue, none)] seen :=
      ⟨_, rfl, _, .cons ⟨by decide, trivial⟩ ⟨rfl, rfl⟩ (.nil _), rfl⟩
    exact ⟨seen, value, (equivalent.2.2 copying_copiesLvalues false _ _ _).2.mp shown⟩

/-- A `T` with a constructor for a `T&`, which takes the value and leaves `0` behind. -/
def taking : Behaviour Int Unit := fun trace call values =>
  match call with
  | .construct _ _ [⟨src, .lvalue, .self⟩] =>
    ⟨none, (values src).getD 0, fun l => if l = src then 0 else (values l).getD 0⟩
  | call => copying trace call values

/-- `optional<T> o(t);` takes the value of `t` with the union implementation only. -/
theorem Impl.lvalue_taken :
    ¬ ∀ (E : Element Int) (b : Behaviour Int Unit), E.isScalar = false → E.hasValue = none →
      TraceEquivalent E b Op.OfT id := by
  intro every
  obtain ⟨seen, left, shown⟩ : ∃ seen : Observation Int, seen.value (.var 0) = some 0 ∧
      (Impl.union false).Shows (.nontrivial Int) taking Op.OfT id (fun _ => 1)
        [(.valueCtor 0 (.var 0) .lvalue, none)] seen :=
    ⟨_, rfl, _, .cons ⟨by decide, trivial⟩ ⟨rfl, rfl⟩ (.nil _), rfl⟩
  obtain ⟨w, run, look⟩ := (every (.nontrivial Int) taking rfl rfl false _ _ _).1.mp shown
  cases run with
  | cons legal step tail =>
    cases tail
    obtain ⟨-, rfl⟩ := step
    rw [← look] at left
    exact absurd left (by decide)

end BoostOptional
