import BoostOptional.Effect.Decomposition
import BoostOptional.Values.Actions
import BoostOptional.Storage.Agreement

/-!
Every operation of both implementations makes of the values what the table says, and so does a run, also
over direct storage. The implementations differ in temporaries, in the calls they make and in how they swap.
None of this can be told from the values.
-/

namespace BoostOptional
open Effect Prog Memory

variable {α ε : Type} {R : Semantics α} {E : Element α} {b : Behaviour α ε}

namespace Values

variable {vals : Values α} {x y : Loc}

theorem exchange_comm : exchange x y vals = exchange y x vals := by
  funext l
  unfold exchange
  by_cases atX : l = x
  · subst atX
    by_cases same : l = y
    · subst same
      simp
    · simp [same]
  · by_cases atY : l = y
    · subst atY
      simp [atX]
    · simp [atX, atY]

/-- A value that moves over, after which its source is destroyed. -/
theorem exchange_move (R : Semantics α) {v : α} (held : vals y = some v) (vacant : vals x = none) :
    clear y (R.receive x ⟨y, .rvalue, .self⟩ vals) = exchange x y vals := by
  have apart : x ≠ y := fun same => by simp [same, held] at vacant
  funext l
  by_cases atY : l = y
  · subst atY
    simp [clear, exchange, vacant]
  · by_cases atX : l = x
    · subst atX
      simp [clear, exchange, Semantics.receive, apart, held, R.make_self]
    · have unmoved : ¬ y = l := fun same => atY same.symm
      simp [clear, exchange, Semantics.receive, Semantics.leave, moves, atX, atY, unmoved]

/-- A default value that is swapped in and then destroyed. -/
theorem exchange_default (R : Semantics α) (vacant : vals x = none) (apart : x ≠ y) :
    clear y (exchange x y (R.construct .direct x [] vals)) = exchange x y vals := by
  funext l
  by_cases atY : l = y
  · subst atY
    simp [clear, exchange, vacant]
  · by_cases atX : l = x
    · subst atX
      simp [clear, exchange, Semantics.construct, Semantics.leave, moves, apart, Ne.symm apart]
    · simp [clear, exchange, Semantics.construct, Semantics.leave, moves, atX, atY]

end Values

namespace Spec

variable {s : State α}

theorem emplace_computes (regular : R.Regular E b) {how : Init} {this : ObjId} {args : List Arg}
    (free : ∀ v ∈ args, v.loc ≠ .contained this) :
    (emplace b how this args s).Returns fun _ t => value t = R.construct how (.contained this) args (value s) := by
  refine returns_andThen (clear_computes this) fun _ t cleared => ?_
  refine (create_computes regular how this args).mono fun _ r made => ?_
  rw [made.1, cleared, Semantics.construct_clear free]

theorem innerHasValue_computes (hasValue : α → Bool) (l : Loc) :
    ((innerHasValue hasValue l : Doc α ε Bool) s).Returns fun has t => t = s ∧ has = (value s l).any hasValue := by
  unfold innerHasValue
  cases held : value s l with
  | none => trivial
  | some v => exact ⟨rfl, rfl⟩

/-- From a `T` that is an optional, taken for the `U` in it. -/
theorem assignInner_computes (regular : R.Regular E b) {hasValue : α → Bool} (nested : E.hasValue = some hasValue)
    {this : ObjId} {src : Loc} {cat : Cat} (unaliased : Unaliased (.contained this) ⟨src, cat, .inner⟩) :
    (assignFrom b .forwarded this (innerHasValue hasValue src) ⟨src, cat, .inner⟩ s).Returns fun _ t =>
      value t = if (value s src).any hasValue then R.receiveInner (.contained this) src cat (value s)
        else Values.clear (.contained this) (value s) := by
  refine assignFrom_either (assignT_computes regular unaliased) (fun has absent => ?_) (innerHasValue_computes hasValue src)
  refine (createFrom_computes regular (by simp)).mono fun _ t made => ?_
  obtain ⟨x, held, full⟩ := (Option.any_eq_true _ _).mp has
  rw [made, Semantics.receive, Semantics.receiveInner, held, absent, Option.map_some, Option.map_some,
    regular.inner hasValue x nested full]

/-! ### Assigning a `T` in the union implementation -/

/-- A scalar is assigned from a temporary optional. -/
theorem assignScalar_computes (regular : R.Regular E b) {this : Nat} {src : Loc} {cat : Cat} :
    ((do newOptional .temporary (create b .direct .temporary [⟨src, cat.bound, .self⟩])
         bracket (assignFrom b .forwarded (.named this) (engaged .temporary) ⟨.contained .temporary, .rvalue, .self⟩)
          (destroy .temporary) : Doc α ε Unit) s).Returns fun _ t =>
      value t = R.receive (.contained (.named this)) ⟨src, cat, .self⟩ (value s) := by
  have made : (newOptional .temporary (create b .direct .temporary [⟨src, cat.bound, .self⟩]) s).Returns
      fun _ t => value t = R.receive (.contained .temporary) ⟨src, cat, .self⟩ (value s) ∧
        value s (.contained .temporary) = none ∧ ∃ x, value s src = some x := by
    refine newOptional_computes (Q := fun vals => vals = _ ∧ _) fun t appeared absent => ?_
    refine (create_computes regular _ _ _).mono fun _ r created => ?_
    obtain ⟨created, _, live⟩ := created
    obtain ⟨x, held⟩ := Option.isSome_iff_exists.mp (live _ (.head _))
    refine ⟨?_, absent, x, by rw [← appeared, held]⟩
    rw [created, Semantics.construct_receive held, appeared]
    exact R.receive_bound (v := ⟨src, cat, .self⟩)
  refine returns_andThen made fun _ t temporary => ?_
  obtain ⟨temporary, absent, x, held⟩ := temporary
  have engages : ((engaged .temporary : Doc α ε Bool) t).Returns fun has u => u = t ∧ has = true := by
    refine (engaged_computes _).mono fun has u tested => ⟨tested.1, ?_⟩
    rw [tested.2, temporary]
    simp [Semantics.receive, held]
  refine returns_bracket (assignFrom_computes regular (by simp) (.inl (by simp)) engages) fun _ u assigned => ?_
  refine (destroy_computes _).mono fun _ r gone => ?_
  rw [gone, assigned, if_pos rfl, temporary]
  exact Semantics.receive_through held absent (by simp)

theorem unionAssignFromT_computes (regular : R.Regular E b) (copying : Bool) {this : Nat} {src : Loc} {cat : Cat}
    (unaliased : cat = .rvalue → src ≠ .contained (.named this)) :
    (unionAssignFromT b E (.named this) ⟨src, cat, .self⟩ s).Returns fun _ t =>
      value t = R.assignFromT E (.union copying) cat (.contained (.named this)) src (value s) := by
  have still : ∀ ty, ty ≠ .other → Unaliased (.contained (.named this)) ⟨src, cat, ty⟩ := by
    intro ty own
    by_cases moved : cat = .rvalue
    · exact .inl (unaliased moved)
    · exact .inr ⟨own, moved⟩
  have whole : (assignValue b .forwarded .forwarded (.named this) ⟨src, cat, .self⟩ s).Returns fun _ t =>
      value t = R.receive (.contained (.named this)) ⟨src, cat, .self⟩ (value s) :=
    assignValue_computes regular (by simp) (still .self (by simp))
  cases nested : E.hasValue with
  | none =>
    have boxed : (Impl.union copying).unboxes E cat = none := by
      unfold Impl.unboxes
      rw [nested]
    unfold unionAssignFromT Semantics.assignFromT
    rw [boxed]
    cases E.isScalar with
    | true => exact assignScalar_computes regular
    | false =>
      simp only [nested]
      exact whole
  | some hasValue =>
    have unscalar : E.isScalar = false := by
      cases scalar : E.isScalar with
      | false => rfl
      | true => simp [E.scalar_flat scalar] at nested
    have inner := assignInner_computes (s := s) regular nested (still .inner (by simp))
    unfold unionAssignFromT Semantics.assignFromT Impl.unboxes
    simp only [unscalar, Bool.false_eq_true, if_false, nested]
    cases cat with
    | lvalue => exact whole
    | constLvalue | rvalue => exact inner

/-! ### Swap -/

/-- One side moves over to the other, which is empty. -/
theorem transfer_computes (regular : R.Regular E b) {dst src : ObjId} :
    (transfer b dst src s).Returns fun _ t =>
      value t = Values.exchange (.contained dst) (.contained src) (value s) := by
  refine returns_andThen (create_computes regular .direct dst _) fun _ t made => ?_
  obtain ⟨made, vacant, live⟩ := made
  obtain ⟨v, held⟩ := Option.isSome_iff_exists.mp (live _ (.head _))
  refine (clear_computes src).mono fun _ r cleared => ?_
  rw [cleared, made, Semantics.construct_receive held, Values.exchange_move R held vacant]

theorem exchange_empty {x y : ObjId} (emptyX : (value s (.contained x)).isSome = false)
    (emptyY : (value s (.contained y)).isSome = false) :
    value s = Values.exchange (.contained x) (.contained y) (value s) := by
  rw [Option.isSome_eq_false_iff, Option.isNone_iff_eq_none] at emptyX emptyY
  rw [Values.exchange, emptyX, emptyY, ← emptyX, Function.update_eq_self, emptyX, ← emptyY,
    Function.update_eq_self]

theorem swap_computes (regular : R.Regular E b) {x y : ObjId} :
    (swap b x y s).Returns fun _ t => value t = Values.exchange (.contained x) (.contained y) (value s) := by
  refine returns_andThen (engaged_computes x) fun hasX t here => ?_
  obtain ⟨rfl, rfl⟩ := here
  refine returns_ite (fun _ => ?_) fun emptyX => ?_
  · refine returns_andThen (engaged_computes y) fun hasY u here => ?_
    obtain ⟨rfl, rfl⟩ := here
    refine returns_ite (fun _ => invokeSwap_computes regular _ _) fun _ => ?_
    rw [Values.exchange_comm]
    exact transfer_computes regular
  · refine returns_andThen (engaged_computes y) fun hasY u here => ?_
    obtain ⟨rfl, rfl⟩ := here
    exact returns_ite (fun _ => transfer_computes regular) fun emptyY => exchange_empty emptyX emptyY

/-- The empty side gets a default value, the two are swapped, and the default value is destroyed. -/
theorem throughDefault_computes (regular : R.Regular E b) {dst src x y : ObjId}
    (sides : dst = x ∧ src = y ∨ dst = y ∧ src = x) (full : (value s (.contained src)).isSome = true) :
    ((do create b .direct dst []; invokeSwap b (.contained x) (.contained y); clear src : Doc α ε Unit) s).Returns
      fun _ t => value t = Values.exchange (.contained x) (.contained y) (value s) := by
  refine returns_andThen (create_computes regular .direct dst []) fun _ t made => ?_
  obtain ⟨made, vacant, _⟩ := made
  have apart : Loc.contained dst ≠ .contained src := fun same => by simp [← same, vacant] at full
  refine returns_andThen (invokeSwap_computes regular _ _) fun _ u swapped => ?_
  refine (clear_computes src).mono fun _ r cleared => ?_
  rw [cleared, swapped, made]
  rcases sides with ⟨rfl, rfl⟩ | ⟨rfl, rfl⟩
  · exact Values.exchange_default R vacant apart
  · rw [Values.exchange_comm, Values.exchange_default R vacant apart, Values.exchange_comm]

theorem swapDefault_computes (regular : R.Regular E b) {x y : ObjId} :
    (swapDefault b x y s).Returns fun _ t =>
      value t = Values.exchange (.contained x) (.contained y) (value s) := by
  refine returns_andThen (engaged_computes x) fun hasX t here => ?_
  obtain ⟨rfl, rfl⟩ := here
  refine returns_ite (fun fullX => ?_) fun emptyX => ?_
  · refine returns_andThen (engaged_computes y) fun hasY u here => ?_
    obtain ⟨rfl, rfl⟩ := here
    exact returns_ite (fun _ => invokeSwap_computes regular _ _) fun _ =>
      throughDefault_computes regular (.inr ⟨rfl, rfl⟩) fullX
  · refine returns_andThen (engaged_computes y) fun hasY u here => ?_
    obtain ⟨rfl, rfl⟩ := here
    exact returns_ite (fun fullY => throughDefault_computes regular (.inl ⟨rfl, rfl⟩) fullY)
      fun emptyY => exchange_empty emptyX emptyY

/-! ### Every operation -/

theorem assignOptional_computes (regular : R.Regular E b) {p : Passing} {this rhs : ObjId} {cat : Cat}
    {ty : ArgTy} (typed : ty ≠ .inner) (unaliased : Unaliased (.contained this) ⟨.contained rhs, cat, ty⟩) :
    (assignFrom b p this (engaged rhs) ⟨.contained rhs, cat, ty⟩ s).Returns fun _ t =>
      value t = R.receive (.contained this) ⟨.contained rhs, cat, ty⟩ (value s) := by
  refine (assignFrom_computes regular typed unaliased (engaged_computes rhs)).mono fun _ t assigned => ?_
  rw [assigned]
  split
  · rfl
  · rename_i empty
    rw [Semantics.receive_absent (by simpa using empty)]

theorem style_assignFromT_computes (regular : R.Regular E b) (impl : Impl) {this : Nat} {src : Loc} {cat : Cat}
    (unaliased : cat = .rvalue → src ≠ .contained (.named this)) :
    ((style b E impl).assignFromT (.named this) ⟨src, cat, .self⟩ s).Returns fun _ t =>
      value t = R.assignFromT E impl cat (.contained (.named this)) src (value s) := by
  cases impl with
  | union copying => exact unionAssignFromT_computes regular copying unaliased
  | aligned _ =>
    have still : Unaliased (.contained (.named this)) ⟨src, cat, .self⟩ := by
      by_cases moved : cat = .rvalue
      · exact .inl (unaliased moved)
      · exact .inr ⟨by simp, moved⟩
    exact assignValue_computes regular (by simp) still

theorem style_swap_computes (regular : R.Regular E b) (impl : Impl) {x y : ObjId} :
    ((style b E impl).swap x y s).Returns fun _ t =>
      value t = Values.exchange (.contained x) (.contained y) (value s) := by
  cases impl with
  | union _ => exact swap_computes regular
  | aligned useDefault =>
    cases useDefault with
    | false => exact swap_computes regular
    | true => exact swapDefault_computes regular

/-- A constructor whose body builds the value from a condition. -/
theorem newIf_computes {o : ObjId} (cond : Bool) {body : Doc α ε Unit} {f : Values α → Values α}
    (built : ∀ t : State α, (body t).Returns fun _ u => value u = f (value t)) :
    (newOptional o (if cond then body else pure ()) s).Returns fun _ t =>
      value t = if cond then f (value s) else Values.clear (.contained o) (value s) := by
  refine newOptional_computes (Q := (· = _)) fun t appeared absent => ?_
  cases cond with
  | true => exact (built t).mono fun _ u made => by rw [made, appeared]; rfl
  | false =>
    change value t = Values.clear (.contained o) (value s)
    rw [Values.clear_absent absent, appeared]

theorem exec_computes (regular : R.Regular E b) (impl : Impl) {op : Op} (unaliased : op.Unaliased) :
    (exec b (style b E impl) op s).Returns fun _ t => value t = op.effect R E impl (value s) := by
  have newCreate : ∀ {o : ObjId} {how : Init} {args : List Arg}, (newOptional o (create b how o args) s).Returns
      fun _ t => value t = R.construct how (.contained o) args (value s) := fun {o how args} =>
    newIf_computes true fun t => (create_computes regular how o args).mono fun _ _ made => made.1
  cases op with
  | defaultCtor o | noneCtor o =>
    refine (appear_computes (.named o)).mono fun _ t appeared => ?_
    rw [appeared.1]
    exact (Values.clear_absent appeared.2).symm
  | valueCtor o src cat =>
    exact newIf_computes true fun t => createFrom_computes regular (by simp)
  | condCtor o cond src cat => exact newIf_computes cond fun t => createFrom_computes regular (by simp)
  | inPlaceCtor o args | factoryCtor o typed args => exact newCreate
  | inPlaceIfCtor o cond args =>
    exact newIf_computes cond fun t => (create_computes regular _ _ _).mono fun _ _ made => made.1
  | copyCtor o rhs | moveCtor o rhs | convCopyCtor o rhs | convMoveCtor o rhs =>
    exact newFrom_computes regular (by simp)
  | exprCtor o src cat =>
    refine newIf_computes true fun t => ?_
    refine (create_computes regular _ _ _).mono fun _ u made => ?_
    obtain ⟨made, _, live⟩ := made
    obtain ⟨x, held⟩ := Option.isSome_iff_exists.mp (live _ (.head _))
    rw [made, Semantics.construct_receive held]
  | assignNone this | reset this => exact clear_computes _
  | assignFromT this src cat => exact style_assignFromT_computes regular impl unaliased
  | resetValue this src => exact style_assignFromT_computes regular impl (by simp)
  | assignFromU this src cat => exact assignValue_computes regular (by simp) (.inl unaliased)
  | copyAssign this rhs => exact assignOptional_computes regular (by simp) (.inr (by simp))
  | moveAssign this rhs | convCopyAssign this rhs | convMoveAssign this rhs =>
    have apart : Loc.contained (.named rhs) ≠ .contained (.named this) := fun same =>
      unaliased (ObjId.named.inj (Loc.contained.inj same))
    exact assignOptional_computes regular (by simp) (.inl apart)
  | assignFactory this typed args | emplace this args => exact emplace_computes regular unaliased
  | swap x y => exact style_swap_computes regular impl
  | destroy o => exact destroy_computes _

end Spec

/-! ### Runs -/

theorem Op.Unaliased.selfFree {op : Op} (unaliased : op.Unaliased) : op.SelfFree := by
  cases op <;> first | exact unaliased | trivial

section Runs

variable {impl : Impl} {w w' : World α} {events : List (Op × Option ε)}

theorem Impl.exec_computes (regular : R.Regular E b) (settled : w.Settled) {op : Op} (legal : op.Legal w)
    (unaliased : op.Unaliased) (ends : (impl.exec E b op w).Ends none w') :
    w'.value = op.effect R E impl w.value := by
  have rep := consistent_represents settled.consistent
  have safe := Spec.exec_quiet b E impl settled.document_quiet (rep.legal legal) unaliased.selfFree
  have matched := impl.exec_implements E b op legal.fresh w _ rep
  obtain ⟨t, ends', rep'⟩ := (matched.flip (safe.mono (fun _ _ _ => trivial) fun _ _ _ => trivial)).ends ends
  have computes := (Spec.exec_computes regular impl unaliased).ends ends'
  have before : w.value = value w.document := rep.value_eq
  have after : w'.value = value t := rep'.value_eq
  rw [before, after, computes]

/-- Both implementations compute with values. In a run in which nothing throws, the value of every optional
and every variable is what the table of the operations makes of the values at the start. -/
theorem Impl.run_computes (regular : R.Regular E b)
    (run : ((impl.system E b).restrict fun op _ => op.Unaliased).Run w events w')
    (quiet : ∀ event ∈ events, event.2 = none) (settled : w.Settled) :
    w'.value = (events.map Prod.fst).foldl (Op.effect R E impl) w.value := by
  induction run with
  | nil => rfl
  | @cons w u w' op threw rest legal ends tail ih =>
    obtain ⟨legal, unaliased⟩ := legal
    have free := unaliased.selfFree
    obtain rfl : threw = none := quiet _ (.head _)
    have next : u.Settled := ends.holds (impl.exec_settled b E settled legal free)
    rw [ih (fun event member => quiet event (.tail _ member)) next,
      Impl.exec_computes regular settled legal unaliased ends]
    rfl

/-- Direct storage computes with values, too. An optional that is empty may have a value in its storage, but
what can be seen of a run is what the same table makes of the values at the start. -/
theorem Direct.run_values (regular : R.Regular E b) (conversions : Conversions b) {useDefault : Bool}
    {var : Nat → α} (run : (Direct.agreeableSystem b useDefault).Run (World.initial var) events w)
    (unaliased : ∀ event ∈ events, event.1.Unaliased) (quiet : ∀ event ∈ events, event.2 = none) :
    let vals := (events.map Prod.fst).foldl (Op.effect R E (.aligned useDefault)) (World.initial var).value
    (∀ o, w.flag (.named o) = some true ↔ (vals (.contained (.named o))).isSome = true) ∧
    ∀ l, Visible w l → w.value l = vals l := by
  intro vals
  obtain ⟨t, aligned, similar, settled⟩ := Direct.run_inStep E conversions useDefault run (initial_inStep var)
  have computed : t.value = vals :=
    Impl.run_computes regular (aligned.strengthen unaliased) quiet (World.initial_settled var)
  refine ⟨fun o => ?_, fun l visible => ?_⟩
  · rw [similar.flag, ← computed]
    exact (settled.consistent _).symm
  · rw [similar.value l visible, computed]

end Runs

/-- Integers, where a move is a copy. -/
def intSemantics : Semantics Int where
  make _ args := (args.head?.bind Prod.snd).getD 0
  storeInner _ x := x
  left := id
  make_self _ := rfl
  make_implicit _ := rfl

theorem intLike_regular (E : Element Int) (fails : List Call → Call → Option ε) :
    intSemantics.Regular E (intLike fails) where
  construct trace values how dst args threw := by
    cases quiet : fails trace (.construct how dst args) with
    | some e => simp [intLike, quiet] at threw
    | none =>
      refine ⟨?_, fun v _ x held => by simp [intLike, quiet, held, intSemantics]⟩
      cases args <;> simp [intLike, quiet, intSemantics]
  assign trace values dst v t x threw _ held _ := by
    cases quiet : fails trace (.assign dst v) with
    | some e => simp [intLike, quiet] at threw
    | none =>
      refine ⟨?_, fun apart => ?_⟩
      · cases ty : v.ty <;> simp [intLike, quiet, held, intSemantics, Semantics.store]
      simp [intLike, quiet, held, apart, intSemantics]
  swap trace values x y v u threw heldX heldY := by
    cases quiet : fails trace (.swap x y) with
    | some e => simp [intLike, quiet] at threw
    | none =>
      refine ⟨by simp [intLike, quiet, heldY], ?_⟩
      by_cases same : y = x
      · subst same
        obtain rfl : v = u := Option.some.inj (heldX.symm.trans heldY)
        simp [intLike, quiet, heldX]
      · simp [intLike, quiet, same, heldX]
  inner _ _ _ _ := rfl

/-- `T`'s operations, as a semantics has them, none of which throws. -/
def Semantics.behaviour [Inhabited α] (R : Semantics α) : Behaviour α ε := fun _ call values =>
  match call with
  | .construct how _ args =>
    ⟨none, R.make how (args.map fun v => (v.ty, values v.loc)), fun l => (R.leave args values l).getD default⟩
  | .assign dst v => ⟨none, default, fun l => (R.assign dst v values l).getD default⟩
  | .swap x y => ⟨none, default, fun l => (Values.exchange x y values l).getD default⟩
  | .destroy _ => ⟨none, default, fun l => (values l).getD default⟩

theorem Semantics.behaviour_regular [Inhabited α] {R : Semantics α}
    (inner : ∀ hasValue x, E.hasValue = some hasValue → hasValue x = true → R.make .direct [(.inner, some x)] = x) :
    R.Regular E (R.behaviour : Behaviour α ε) where
  construct trace values how dst args _ := by
    refine ⟨rfl, fun v member x held => ?_⟩
    change (R.leave args values v.loc).getD default = _
    unfold Semantics.leave
    split <;> simp [held]
  assign trace values dst v t x _ full held _ := by
    have stored := R.assign_eq full held
    refine ⟨?_, fun apart => ?_⟩
    · change (R.assign dst v values dst).getD default = _
      simp [stored]
    · change (R.assign dst v values v.loc).getD default = _
      rw [stored, Function.update_of_ne apart]
      by_cases moved : v.cat = .rvalue <;> simp [Semantics.leave, moves, moved, held]
  swap trace values x y v u _ heldX heldY := by
    change (Values.exchange x y values x).getD default = u ∧ (Values.exchange x y values y).getD default = v
    refine ⟨?_, by simp [Values.exchange, heldX]⟩
    by_cases same : x = y
    · subst same
      simp [Values.exchange, heldX, Option.some.inj (heldX.symm.trans heldY)]
    · simp [Values.exchange, same, heldY]
  inner := inner

/-- `T` is an `optional<optional<int>>`. The `optional<int>` in `x`, when it is empty, empties a `T`. -/
def nestedSemantics : Semantics (Option (Option Int)) where
  make _ args := (args.head?.bind Prod.snd).getD none
  storeInner _ x := x.filter Option.isSome
  left := id
  make_self _ := rfl
  make_implicit _ := rfl

def nestedElement : Element (Option (Option Int)) :=
  { Element.nontrivial (Option (Option Int)) with
    hasValue := some Option.isSome
    scalar_flat scalar := absurd scalar Bool.false_ne_true }

/-- `o0(x1); o0 = x0;` with a const lvalue `x0` around an empty optional. -/
theorem Impl.run_computes_nested :
    ∃ w : World (Option (Option Int)), ((Impl.union true).system nestedElement
        (nestedSemantics.behaviour : Behaviour (Option (Option Int)) Unit)).Run
      (World.initial fun x => if x = 0 then some none else some (some 1))
      [(.valueCtor 0 (.var 1) .lvalue, none), (.assignFromT 0 (.var 0) .constLvalue, none)] w ∧
      w.value (.contained (.named 0)) = some none := by
  obtain ⟨w, run⟩ : ∃ w : World (Option (Option Int)), (((Impl.union true).system nestedElement
        (nestedSemantics.behaviour : Behaviour (Option (Option Int)) Unit)).restrict fun op _ => op.Unaliased).Run
      (World.initial fun x => if x = 0 then some none else some (some 1))
      [(.valueCtor 0 (.var 1) .lvalue, none), (.assignFromT 0 (.var 0) .constLvalue, none)] w :=
    ⟨_, .cons ⟨by decide, by decide⟩ ⟨rfl, rfl⟩ (.cons ⟨by decide, by decide⟩ ⟨rfl, rfl⟩ (.nil _))⟩
  have regular : nestedSemantics.Regular nestedElement (nestedSemantics.behaviour : Behaviour _ Unit) :=
    Semantics.behaviour_regular fun _ _ _ _ => rfl
  have computed := Impl.run_computes regular run (by simp) (World.initial_settled _)
  exact ⟨w, run.unrestrict, by rw [computed]; rfl⟩

/-- `o0(x0); o1; o1 = u; swap(o0, o1); o0.reset();` of scalars. -/
theorem Direct.run_values_reset :
    ∃ w : World Int, (Direct.agreeableSystem (intLike (conversionFails fun _ => (none : Option Unit))) true).Run
        (World.initial fun x => x) [(.valueCtor 0 (.var 7) .lvalue, none), (.defaultCtor 1, none),
          (.assignFromU 1 (.var 4) .lvalue, none), (.swap 0 1, none), (.reset 0, none)] w ∧
      w.flag (.named 0) ≠ some true ∧ w.value (.contained (.named 1)) = some 7 := by
  obtain ⟨w, run⟩ : ∃ w : World Int, (Direct.agreeableSystem (intLike (conversionFails fun _ => (none : Option Unit)))
        true).Run (World.initial fun x => x) [(.valueCtor 0 (.var 7) .lvalue, none), (.defaultCtor 1, none),
          (.assignFromU 1 (.var 4) .lvalue, none), (.swap 0 1, none), (.reset 0, none)] w :=
    ⟨_, .cons ⟨show Op.Legal _ _ by decide, ⟨trivial, var_visible _ 7⟩, trivial⟩ ⟨rfl, rfl⟩
      (.cons ⟨show Op.Legal _ _ by decide, ⟨trivial, nofun⟩, trivial⟩ ⟨rfl, rfl⟩
      (.cons ⟨show Op.Legal _ _ by decide, ⟨trivial, var_visible _ 4⟩, fun _ => ⟨rfl, rfl, fun _ _ => rfl⟩⟩ ⟨rfl, rfl⟩
      (.cons ⟨show Op.Legal _ _ by decide, ⟨trivial, nofun⟩, trivial⟩ ⟨rfl, rfl⟩
      (.cons ⟨show Op.Legal _ _ by decide, ⟨trivial, nofun⟩, trivial⟩ ⟨rfl, rfl⟩ (.nil _)))))⟩
  obtain ⟨flags, values⟩ := Direct.run_values (intLike_regular (.nontrivial Int) _) (intLike_conversions _) run
    (by decide) (by decide)
  have emptied : w.flag (.named 0) ≠ some true := fun full => by cases (flags 0).mp full
  have full : w.flag (.named 1) = some true := (flags 1).mpr rfl
  exact ⟨w, run, emptied, values (.contained (.named 1)) full⟩

end BoostOptional
