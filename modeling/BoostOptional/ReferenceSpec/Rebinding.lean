import BoostOptional.ReferenceSpec.Functions

/-!
An `optional<T&>` is a nullable address that can be bound anew. `meaning` says so for each
operation, in terms of addresses alone; a run of the code keeps to it.
-/

namespace BoostOptional.ReferenceSpec
open Effect Prog

/-- The address in each optional reference, and `none` where there is no optional reference. -/
abbrev Bindings : Type := Nat → Option (Option Loc)

variable (types : Referees)

/-- What an operation means. `flags` tells which `optional<T>` have a value. -/
def meaning (flags : ObjId → Option Bool) (op : Op) (b : Bindings) : Bindings :=
  match op with
  | .defaultCtor o | .noneCtor o | .assignNone o | .reset o => Function.update b o (some none)
  | .copyCtor o rhs | .copyAssign o rhs => Function.update b o (b rhs)
  | .convCtor o rhs | .convAssign o rhs =>
    Function.update b o ((b rhs).map (Option.map (types.convert (types.type rhs) (types.type o))))
  | .lvalueCtor o r | .rvalueCtor o r => Function.update b o (some (some r))
  | .forwardCtor o r | .assignRef o r | .emplace o r | .resetRef o r =>
    Function.update b o (some (some (types.convert r.type (types.type o) r.loc)))
  | .condCtor o cond r =>
    Function.update b o (some (if cond then some (types.convert r.type (types.type o) r.loc) else none))
  | .fromOptional o from_ =>
    Function.update b o (some (if flags (.named from_) = some true then
        some (.contained (.named from_)) else none))
  | .swap x y => Function.update (Function.update b x (b y)) y (b x)
  | .destroy o => Function.update b o none

/-- The addresses after the operations of a run, in a program that starts without optional
references. -/
def bindings (flags : ObjId → Option Bool) (ops : List Op) : Bindings :=
  ops.foldl (fun b op => meaning types flags op b) fun _ => none

def Pointer.ofAddress : Option Loc → Pointer
  | some l => .to l
  | none => .null

def encode (b : Bindings) : Nat → Option Pointer := Option.map Pointer.ofAddress ∘ b

theorem encode_update (b : Bindings) (o : Nat) (a : Option (Option Loc)) :
    encode (Function.update b o a) = Function.update (encode b) o (a.map Pointer.ofAddress) :=
  Function.comp_update _ _ _ _

theorem encode_absent {b : Bindings} {o : Nat} : encode b o = none ↔ b o = none := by
  simp [encode]

variable {types}

@[simp] theorem as_ofAddress (u t : Nat) (a : Option Loc) :
    (Pointer.ofAddress a).as types u t = .ofAddress (a.map (types.convert u t)) := by
  cases a <;> rfl

section Code

variable {α ε : Type} {s : State α} {b : Bindings} {o : Nat} {allow : Bool}

theorem create_eq (absent : s.ptr_ o = none) (p : Pointer) :
    (create o p : Code α ε Unit) s = .ok () { s with ptr_ := Function.update s.ptr_ o (some p) } := by
  simp only [create, absent]

theorem store_eq (present : s.ptr_ o ≠ none) (p : Pointer) :
    (store o p : Code α ε Unit) s = .ok () { s with ptr_ := Function.update s.ptr_ o (some p) } := by
  obtain ⟨q, held⟩ := Option.ne_none_iff_exists'.mp present
  simp only [store, held]

theorem load_eq (bound : s.ptr_ = encode b) {a : Option Loc} (address : b o = some a) :
    (load o : Code α ε Pointer) s = .ok (.ofAddress a) s := by
  have held : s.ptr_ o = some (.ofAddress a) := by simp [bound, encode, address]
  cases a <;> simp [load, held, Pointer.ofAddress]

theorem preventBindingRvalue_eq {isLvalue : Bool} (compiles : (allow || isLvalue) = true) :
    (preventBindingRvalue allow isLvalue : Code α ε Unit) = pure () := by
  rw [preventBindingRvalue, if_pos compiles]

theorem exec_eq {op : Op} (bound : s.ptr_ = encode b) (legal : op.Legal allow s)
    (initializes : op.initializes = true) :
    (exec types allow op : Code α ε Unit) s =
      .ok () { s with ptr_ := encode (meaning types s.world.flag op b) } := by
  obtain ⟨compiles, creates, objects, converts⟩ := legal
  have address : ∀ o ∈ op.objects, ∃ a, b o = some a := by
    intro o member
    have present := objects o member
    rw [bound, ne_eq, encode_absent] at present
    exact Option.ne_none_iff_exists'.mp present
  cases op with
  | defaultCtor o | noneCtor o =>
    have absent := creates o (.head _)
    change create o .null s = _
    rw [create_eq absent, meaning, encode_update, bound]
    rfl
  | copyCtor o rhs =>
    obtain ⟨a, held⟩ := address rhs (.head _)
    have absent := creates o (.head _)
    change andThen (load rhs) _ s = _
    rw [andThen_ok (load_eq bound held), create_eq absent, meaning, encode_update, bound, held]
    rfl
  | convCtor o rhs =>
    obtain ⟨a, held⟩ := address rhs (.head _)
    have absent := creates o (.head _)
    change andThen (load rhs) _ s = _
    rw [andThen_ok (load_eq bound held), create_eq absent, meaning, encode_update, bound, held,
      as_ofAddress]
    rfl
  | lvalueCtor o r =>
    have absent := creates o (.head _)
    change create o (.to r) s = _
    rw [create_eq absent, meaning, encode_update, bound]
    rfl
  | rvalueCtor o r => cases initializes
  | forwardCtor o r =>
    have absent := creates o (.head _)
    change andThen (preventBindingRvalue allow r.isLvalue) _ s = _
    rw [preventBindingRvalue_eq compiles, andThen_ok (pure_apply () s), create_eq absent, meaning,
      encode_update, bound]
    rfl
  | condCtor o cond r =>
    have absent := creates o (.head _)
    change andThen (preventBindingRvalue allow r.isLvalue) _ s = _
    rw [preventBindingRvalue_eq compiles, andThen_ok (pure_apply () s), create_eq absent, meaning,
      encode_update, bound]
    cases cond <;> rfl
  | fromOptional o from_ =>
    have absent := creates o (.head _)
    obtain ⟨init, flag⟩ := Option.ne_none_iff_exists'.mp (converts from_ (.head _))
    have test : (optionalHasValue from_ : Code α ε Bool) s = .ok init s := by
      simp only [optionalHasValue, flag]
    change andThen (optionalHasValue from_) _ s = _
    rw [andThen_ok test, meaning, encode_update, flag, ← bound]
    cases init with
    | true => exact create_eq absent _
    | false => exact create_eq absent _
  | copyAssign this rhs =>
    obtain ⟨a, held⟩ := address rhs (.tail _ (.head _))
    have present := objects this (.head _)
    change andThen (load rhs) _ s = _
    rw [andThen_ok (load_eq bound held), store_eq present, meaning, encode_update, bound, held]
    rfl
  | convAssign this rhs =>
    obtain ⟨a, held⟩ := address rhs (.tail _ (.head _))
    have present := objects this (.head _)
    change andThen (load rhs) _ s = _
    rw [andThen_ok (load_eq bound held), store_eq present, meaning, encode_update, bound, held,
      as_ofAddress]
    rfl
  | assignNone this | reset this =>
    have present := objects this (.head _)
    change store this .null s = _
    rw [store_eq present, meaning, encode_update, bound]
    rfl
  | assignRef this r | emplace this r | resetRef this r =>
    have present := objects this (.head _)
    change andThen (preventBindingRvalue allow r.isLvalue) _ s = _
    rw [preventBindingRvalue_eq compiles, andThen_ok (pure_apply () s), store_eq present, meaning,
      encode_update, bound]
    rfl
  | swap x y =>
    obtain ⟨a, heldX⟩ := address x (.head _)
    obtain ⟨c, heldY⟩ := address y (.tail _ (.head _))
    have presentX := objects x (.head _)
    have presentY := objects y (.tail _ (.head _))
    have still : Function.update s.ptr_ x (some (.ofAddress c)) y ≠ none := by
      rw [Function.update_apply]
      split
      · nofun
      · exact presentY
    change andThen (load x) _ s = _
    rw [andThen_ok (load_eq bound heldX)]
    change andThen (load y) _ s = _
    rw [andThen_ok (load_eq bound heldY)]
    change andThen (store x (.ofAddress c)) _ s = _
    rw [andThen_ok (store_eq presentX _), store_eq still, meaning, encode_update, encode_update,
      bound, heldX, heldY]
    rfl
  | destroy o =>
    obtain ⟨p, held⟩ := Option.ne_none_iff_exists'.mp (objects o (.head _))
    change destroy o s = _
    rw [meaning, encode_update, ← bound]
    simp only [destroy, held]
    rfl

/-! ### What the observers say -/

theorem hasValue_eq (bound : s.ptr_ = encode b) {a : Option Loc} (address : b o = some a) :
    (hasValue o : Code α ε Bool) s = .ok a.isSome s := by
  change andThen (load o) _ s = _
  rw [andThen_ok (load_eq bound address)]
  cases a <;> rfl

theorem get_eq (bound : s.ptr_ = encode b) {l : Loc} (address : b o = some (some l)) :
    (get o : Code α ε Loc) s = .ok l s := by
  change andThen (load o) _ s = _
  rw [andThen_ok (load_eq bound address)]
  rfl

end Code

/-! ### Runs -/

variable {α : Type} {allow : Bool}

def State.initial (w : World α) : State α := ⟨w, fun _ => none⟩

theorem initial_encode (w : World α) : (State.initial w).ptr_ = encode fun _ => none := rfl

/-- The runs in which no optional reference is constructed from a `T` rvalue. -/
abbrev InitializingRun (types : Referees) (allow : Bool) :
    State α → List (Op × Option Empty) → State α → Prop :=
  ((system types allow).restrict fun op _ => op.initializes = true).Run

theorem run_bound {s t : State α} {events : List (Op × Option Empty)}
    (run : InitializingRun types allow s events t)
    {b : Bindings} (bound : s.ptr_ = encode b) :
    t.ptr_ = encode ((events.map Prod.fst).foldl (fun b op => meaning types s.world.flag op b) b) ∧
      t.world = s.world := by
  induction run generalizing b with
  | nil => exact ⟨bound, rfl⟩
  | @cons s mid t op raised rest legal ends tail ih =>
    change Outcome.Ends (exec types allow op s) raised mid at ends
    rw [exec_eq bound legal.1 legal.2] at ends
    obtain ⟨rfl, rfl⟩ := ends
    exact ih rfl

/-- After every step, each optional reference holds the address it is meant to, and its observers
agree. A swap exchanges two addresses. No step touches a referee, and none that may come next fails. -/
theorem run_rebinds (w : World α) {events : List (Op × Option Empty)} {s : State α}
    (run : InitializingRun types allow (State.initial w) events s) :
    (∀ o, s.ptr_ o = (bindings types w.flag (events.map Prod.fst) o).map Pointer.ofAddress) ∧
    (∀ o a, bindings types w.flag (events.map Prod.fst) o = some a →
      (hasValue o : Code α Empty Bool) s = .ok a.isSome s ∧
      (getPtr o : Code α Empty Pointer) s = .ok (.ofAddress a) s ∧
      ∀ l, a = some l → (get o : Code α Empty Loc) s = .ok l s) ∧
    (∀ x y, (Op.swap x y).Legal allow s →
      ∃ t, exec types allow (.swap x y) s = (.ok () t : Outcome _ Empty _ _) ∧
      t.ptr_ x = s.ptr_ y ∧ t.ptr_ y = s.ptr_ x) ∧
    s.world = w ∧
    ∀ op, op.Legal allow s → op.initializes = true → ∃ t,
      exec types allow op s = (.ok () t : Outcome _ Empty _ _) ∧ t.world = s.world := by
  obtain ⟨bound, same⟩ := run_bound run (initial_encode w)
  refine ⟨fun o => congrFun bound o, ?_, ?_, same, ?_⟩
  · intro o a address
    refine ⟨hasValue_eq bound address, load_eq bound address, ?_⟩
    rintro l rfl
    exact get_eq bound address
  · intro x y legal
    refine ⟨_, exec_eq bound legal rfl, ?_, ?_⟩
    · rw [bound]
      simp only [meaning, encode_update, Function.update_apply]
      split
      · rename_i together
        rw [together]
        rfl
      · simp [encode]
    · rw [bound]
      simp [meaning, encode]
  · intro op legal initializes
    exact ⟨_, exec_eq bound legal initializes, rfl⟩

def oneType : Referees := ⟨fun _ => 0, fun _ _ l => l, fun _ _ => rfl⟩

def noOptionals : World Int := ⟨fun _ => none, fun _ => .vacant, fun _ => 1, none, []⟩

/-- With rvalues allowed, `optional<const int&> o(1);` leaves the pointer of `o` indeterminate. -/
theorem rvalueCtor_indeterminate :
    ¬ ∀ (types : Referees) (allow : Bool) (w : World Int) (events : List (Op × Option Empty))
      (s : State Int),
        (system types allow).Run (State.initial w) events s →
        ∀ o, s.ptr_ o = (bindings types w.flag (events.map Prod.fst) o).map Pointer.ofAddress := by
  intro every
  obtain ⟨s, run, pointer⟩ : ∃ s : State Int, (system oneType true).Run (State.initial noOptionals)
      [(.rvalueCtor 0 .scratch, none)] s ∧ s.ptr_ 0 = some .indeterminate :=
    ⟨_, .cons ⟨rfl, by decide, by decide, by decide⟩ ⟨rfl, rfl⟩ (.nil _), rfl⟩
  have held := every _ _ _ _ _ run 0
  rw [pointer] at held
  cases held

/-- `optional<int&> o0(v), o1; o0.swap(o1);` -/
theorem run_rebinds_swap :
    ∃ s : State Int, InitializingRun oneType false (State.initial noOptionals)
        [(.lvalueCtor 0 (.var 3), none), (.defaultCtor 1, none), (.swap 0 1, none)] s ∧
      s.ptr_ 0 = some .null ∧ s.ptr_ 1 = some (.to (.var 3)) := by
  obtain ⟨s, run⟩ : ∃ s : State Int, InitializingRun oneType false (State.initial noOptionals)
      [(.lvalueCtor 0 (.var 3), none), (.defaultCtor 1, none), (.swap 0 1, none)] s :=
    ⟨_, .cons ⟨⟨rfl, by decide, by decide, by decide⟩, rfl⟩ ⟨rfl, rfl⟩ <|
      .cons ⟨⟨rfl, by decide, by decide, by decide⟩, rfl⟩ ⟨rfl, rfl⟩ <|
      .cons ⟨⟨rfl, by decide, by decide, by decide⟩, rfl⟩ ⟨rfl, rfl⟩ (.nil _)⟩
  have pointers := (run_rebinds _ run).1
  exact ⟨s, run, pointers 0, pointers 1⟩

end BoostOptional.ReferenceSpec
