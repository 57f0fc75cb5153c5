import BoostOptional.Accessors.Exceptions
import BoostOptional.ReferenceSpec.Validity

/-!
What programs with optional references compute. An optional reference is an address in a table of
bindings, and reading or writing through it is reading or writing at that address.
-/

namespace BoostOptional.ReferenceSpec
open Effect Prog

variable {α ε : Type}

/-- Where an accessor leads from the address in the reference `this`. There is no `*r` of an empty `r`. -/
def Access.target (types : Referees) (vals : Values α) (this : Nat) (a : Access α ε) :
    Option Loc → Except (Thrown ε) Loc
  | some l => .ok l
  | none =>
    match a with
    | .get | .value => .error .badOptionalAccess
    | .valueOr y => .ok (types.convert y.type (types.type this) y.loc)
    | .valueOrEval f =>
      match f.call vals with
      | .ok l => .ok (types.convert f.type (types.type this) l)
      | .error e => .error (.user e)

def Place.target (types : Referees) (vals : Values α) (bindings : Bindings) :
    Place α ε → Except (Thrown ε) Loc
  | .direct l => .ok l
  | .through this a => a.target types vals this (bindings this).join

def Pointer.address : Pointer → Option Loc
  | .to l => some l
  | _ => none

def State.bindings (s : State α) : Bindings := fun o => (s.ptr_ o).map Pointer.address

variable (types : Referees) (R : Semantics α) (E : Element α) (impl : Impl)

/-- The values after a step, and what it throws. -/
def Step.effect (bindings : Bindings) (vals : Values α) : Step α ε → Values α × Option (Thrown ε)
  | .owner stmt => stmt.effect R E impl vals
  | .reference _ => (vals, none)
  | .assign dst src cat ty =>
    match src.target types vals bindings with
    | .error e => (vals, some e)
    | .ok y =>
      match dst.target types vals bindings with
      | .error e => (vals, some e)
      | .ok x => (R.assign x ⟨y, cat, ty⟩ vals, none)
  | .map o r f => mapEffect o ((bindings r).join.bind vals) (fun v => (f v).map some) vals
  | .flatMap o r f => mapEffect o ((bindings r).join.bind vals) f vals

/-- The bindings after a step. -/
def Step.rebind (bindings : Bindings) (vals : Values α) : Step α ε → Bindings
  | .reference op => meaning types (fun o => some (vals (.contained o)).isSome) op bindings
  | _ => bindings

/-- The values that remain when `T` has thrown in a step. -/
def Step.Remains (vals left : Values α) : Step α ε → Prop
  | .owner stmt => stmt.Remains R impl vals left
  | _ => left = vals

/-- The bindings and the values from a state to a last one, through steps that returned or threw. -/
def Leads (b : Behaviour α (Thrown ε)) : Bindings → Values α → List (Step α ε × Option (Thrown ε)) →
    Bindings → Values α → Prop
  | bindings, vals, [], bindings', last => bindings' = bindings ∧ last = vals
  | bindings, vals, (step, threw) :: rest, bindings', last =>
    ∃ next, b.Follows (step.effect types R E impl bindings vals) (step.Remains R impl vals ·) threw next ∧
      Leads b (step.rebind types bindings vals) next rest bindings' last

/-- No `T` is moved into itself or assigned from a part of itself, by whatever names, and no optional
reference is made from a `T` rvalue. -/
def Step.Unaliased (bindings : Bindings) (vals : Values α) : Step α ε → Prop
  | .owner stmt => stmt.Unaliased
  | .reference op => op.initializes = true
  | .assign dst src cat ty => ∀ x y, dst.target types vals bindings = .ok x →
    src.target types vals bindings = .ok y → BoostOptional.Unaliased x ⟨y, cat, ty⟩
  | .map .. | .flatMap .. => True

/-! ### Accessors -/

section Steps

variable {types R E impl} {allow : Bool} {b : Behaviour α (Thrown ε)} {bindings : Bindings} {s t : State α}
  {raised : Option (Thrown ε)}

theorem valueOr_empty {this : Nat} {y : RefArg} (bound : s.ptr_ = encode bindings)
    (empty : bindings this = some none) (compiles : (allow || y.isLvalue) = true) :
    (valueOr types allow this y : Code α (Thrown ε) Loc) s =
      .ok (types.convert y.type (types.type this) y.loc) s := by
  change andThen (preventBindingRvalue allow y.isLvalue) _ s = _
  rw [preventBindingRvalue_eq compiles, andThen_ok (pure_apply () s)]
  change andThen (load this) _ s = _
  rw [andThen_ok (load_eq bound empty)]
  rfl

theorem valueOrEval_empty {this : Nat} {f : Supplier α ε} (bound : s.ptr_ = encode bindings)
    (empty : bindings this = some none) (compiles : f.isLvalue = true) :
    valueOrEval types this f s = match f.call s.world.value with
      | .ok l => .ok (types.convert f.type (types.type this) l) s
      | .error e => .thrown (.user e) s := by
  have asserted : forwardReference f s = .ok () s := by
    rw [forwardReference, if_pos compiles]
    rfl
  change andThen (forwardReference f) _ s = _
  rw [andThen_ok asserted]
  change andThen (load this) _ s = _
  rw [andThen_ok (load_eq bound empty)]
  change andThen (callSupplier f) _ s = _
  unfold andThen callSupplier
  cases f.call s.world.value <;> rfl

variable (types) in
/-- An accessor leads where the table says, or throws what it says. -/
theorem locate_eq {place : Place α ε} (bound : s.ptr_ = encode bindings) (legal : place.Legal allow s) :
    place.locate types allow s = match place.target types s.world.value bindings with
      | .ok l => .ok l s
      | .error e => .thrown e s := by
  cases place with
  | direct l => rfl
  | through this a =>
    have present : s.ptr_ this ≠ none := by
      cases a with
      | get =>
        obtain ⟨l, held⟩ := legal
        rw [held]
        exact Option.some_ne_none _
      | value => exact legal
      | valueOr | valueOrEval => exact legal.1
    obtain ⟨address, held⟩ : ∃ address, bindings this = some address := by
      rw [bound, ne_eq, encode_absent] at present
      exact Option.ne_none_iff_exists'.mp present
    cases address with
    | some l =>
      have pointer : s.ptr_ this = some (.to l) := by
        rw [bound, encode, Function.comp_apply, held]
        rfl
      rw [locate_bound pointer legal, Place.target, held]
      rfl
    | none =>
      simp only [Place.target, held, Option.join_some]
      cases a with
      | get =>
        obtain ⟨l, pointer⟩ := legal
        rw [bound, encode, Function.comp_apply, held] at pointer
        cases pointer
      | value =>
        change andThen (hasValue this) _ s = _
        rw [andThen_ok (hasValue_eq bound held)]
        rfl
      | valueOr y => exact valueOr_empty bound held legal.2
      | valueOrEval f =>
        refine (valueOrEval_empty bound held legal.2).trans ?_
        simp only [Access.target]
        cases f.call s.world.value <;> rfl

/-! ### One step -/

section Worlds

variable {w w' : World α}

theorem follows_through {c : BoostOptional.Code α (Thrown ε) Unit} {d : Spec.Doc α (Thrown ε) Unit}
    {table : Values α × Option (Thrown ε)} {left : Values α → Prop} (settled : w.Settled) (implements : Implements c d)
    (safe : (d w.document).Holds (fun _ => Spec.State.Quiet) fun _ => Spec.State.Quiet)
    (follows : ∀ u : Spec.State α, (d w.document).Ends raised u → b.Follows table left raised (Memory.value u))
    (ends : (c w).Ends raised w') : b.Follows table left raised w'.value := by
  have safe := safe.mono (fun _ _ _ => trivial) fun _ _ _ => trivial
  obtain ⟨u, ends', rep⟩ := ((implements w _ (consistent_represents settled.consistent)).flip safe).ends ends
  have after : w'.value = Memory.value u := rep.value_eq
  rw [after]
  exact follows u ends'

theorem document_value (settled : w.Settled) : w.value = Memory.value w.document :=
  (consistent_represents settled.consistent).value_eq

variable (regular : R.Regular E b) (restores : ∀ c, Spec.Restores b c) (scalar : E.isScalar = true → Builtin b)
  (settled : w.Settled)

include regular restores settled

theorem assignT_follows {x : Loc} {v : Arg} (unaliased : BoostOptional.Unaliased x v)
    (ends : (assignT b x v w).Ends raised w') :
    b.Follows (R.assign x v w.value, none) (· = w.value) raised w'.value := by
  obtain ⟨liveX, liveV⟩ := assignT_live ends
  have safe : (assignT b x v w.document).Holds _ _ := assigned_quiet settled.document_quiet
    (document_live settled liveX) (document_live settled liveV)
  refine follows_through settled (assignT_implements b x v) safe (fun u ends => ?_) ends
  rw [document_value settled]
  exact Spec.follows_of (Spec.assignT_computes regular unaliased) (Spec.assignT_restores restores x v)
    (assignT_raises b x v) ends

include scalar

variable {o : Nat}

theorem flatMapped_ends {l : Loc} (absent : w.flag (.named o) = none) {f : α → Except ε (Option α)}
    (ends : (Accessor.flatMapped (impl.exec E b) o f ⟨l, .lvalue, .self⟩ w).Ends raised w') :
    b.Follows (mapEffect o (w.value l) f w.value) (· = w.value) raised w'.value := by
  obtain ⟨v, held⟩ := Option.isSome_iff_exists.mp (callFunction_live ends)
  rw [held]
  refine follows_through settled (flatMapped_implements b E impl o f _) (flatMapped_quiet settled absent ends)
    (fun u ends => ?_) ends
  rw [document_value settled] at held ⊢
  exact Spec.flatMapped_follows restores regular scalar held ends

omit restores scalar in
theorem newEmpty_ends (absent : w.flag (.named o) = none) (ends : (impl.exec E b (.defaultCtor o) w).Ends raised w') :
    b.Follows (Values.clear (.contained (.named o)) w.value, none) (· = w.value) raised w'.value := by
  have empty : w.document.occupancy.flag (.named o) = none := by
    rw [← (consistent_represents settled.consistent).flag_eq, absent]
  refine follows_through settled (newEmpty_implements o) (newEmpty_quiet settled.document_quiet empty)
    (fun u ends => ?_) ends
  rw [document_value settled]
  exact Spec.noneCtor_follows impl regular ends

end Worlds

/-- Of the flags, an operation of `optional<T&>` sees which are set. -/
theorem meaning_flags {flags flags' : ObjId → Option Bool} (op : Op)
    (same : ∀ o, flags o = some true ↔ flags' o = some true) :
    meaning types flags op bindings = meaning types flags' op bindings := by
  cases op <;> simp only [meaning, same]

section Restoring

variable (regular : R.Regular E b) (restores : ∀ c, Spec.Restores b c) (scalar : E.isScalar = true → Builtin b)
  (settled : s.world.Settled) (bound : s.ptr_ = encode bindings)

include regular restores scalar settled bound

theorem mapThrough_ends {o r : Nat} {f : α → Except ε (Option α)} (present : s.ptr_ r ≠ none)
    (absent : s.world.flag (.named o) = none)
    (ends : (mapThrough E b impl o r (fun l => Accessor.flatMapped (impl.exec E b) o f ⟨l, .lvalue, .self⟩) s).Ends
      raised t) :
    b.Follows (mapEffect o ((bindings r).join.bind s.world.value) f s.world.value) (· = s.world.value) raised
      t.world.value := by
  obtain ⟨address, held⟩ : ∃ address, bindings r = some address := by
    rw [bound, ne_eq, encode_absent] at present
    exact Option.ne_none_iff_exists'.mp present
  have tested : (hasValue r : Code α (Thrown ε) Bool) s = .ok address.isSome s := hasValue_eq bound held
  change (andThen (Part.whole.run Sum.inl (hasValue r)) _ s).Ends raised t at ends
  rw [andThen_ok (Part.run_ok (P := .whole) tested)] at ends
  rw [held, Option.join_some]
  cases address with
  | none =>
    obtain ⟨-, ended⟩ := owners_ends ends
    exact newEmpty_ends regular settled absent ended
  | some l =>
    have got : (get r : Code α (Thrown ε) Loc) s = .ok l s := get_eq bound held
    change (andThen (Part.whole.run Sum.inl (get r)) _ s).Ends raised t at ends
    rw [andThen_ok (Part.run_ok (P := .whole) got)] at ends
    obtain ⟨-, ended⟩ := owners_ends ends
    exact flatMapped_ends regular restores scalar settled absent ended

/-- The values, the exceptions and the bindings of one step. -/
theorem Step.exec_follows {step : Step α ε} (legal : step.Legal allow s)
    (unaliased : step.Unaliased types bindings s.world.value)
    (ends : (step.exec types allow E b impl s).Ends raised t) :
    b.Follows (step.effect types R E impl bindings s.world.value) (step.Remains R impl s.world.value ·) raised
      t.world.value ∧ t.ptr_ = encode (step.rebind types bindings s.world.value) := by
  have pointers : step.binds = [] → t.ptr_ = encode bindings := by
    intro none
    rw [← bound]
    exact funext fun o => (Step.exec_splits ends).1 o (by simp [none])
  cases step with
  | owner stmt =>
    obtain ⟨-, ended⟩ := owners_ends ends
    exact ⟨Statement.exec_follows regular restores scalar settled legal unaliased ended, pointers rfl⟩
  | reference op =>
    obtain ⟨u, ended, rfl⟩ := Part.run_ends.mp ends
    change (ReferenceSpec.exec types allow op s).Ends raised u at ended
    rw [exec_eq bound legal unaliased] at ended
    obtain ⟨rfl, rfl⟩ := ended
    have same : meaning types s.world.flag op bindings =
        meaning types (fun o => some (s.world.value (.contained o)).isSome) op bindings := by
      refine meaning_flags op fun o => ?_
      rw [← settled.consistent o, Option.some_inj]
    exact ⟨.inl rfl, congrArg encode same⟩
  | assign dst src cat ty =>
    obtain ⟨legalDst, legalSrc⟩ := legal
    have fromSrc := locate_eq types bound legalSrc
    have toDst := locate_eq types bound legalDst
    refine ⟨?_, pointers rfl⟩
    change (andThen (Part.whole.run Sum.inl (src.locate types allow)) _ s).Ends raised t at ends
    simp only [Step.effect]
    cases source : src.target types s.world.value bindings with
    | error e =>
      rw [source] at fromSrc
      rw [andThen_thrown (Part.run_thrown (P := .whole) fromSrc)] at ends
      obtain ⟨rfl, rfl⟩ := ends
      exact .inl rfl
    | ok y =>
      rw [source] at fromSrc
      rw [andThen_ok (Part.run_ok (P := .whole) fromSrc)] at ends
      change (andThen (Part.whole.run Sum.inl (dst.locate types allow)) _ s).Ends raised t at ends
      cases target : dst.target types s.world.value bindings with
      | error e =>
        rw [target] at toDst
        rw [andThen_thrown (Part.run_thrown (P := .whole) toDst)] at ends
        obtain ⟨rfl, rfl⟩ := ends
        exact .inl rfl
      | ok x =>
        rw [target] at toDst
        rw [andThen_ok (Part.run_ok (P := .whole) toDst)] at ends
        obtain ⟨_, ended⟩ := owners_ends ends
        exact assignT_follows regular restores settled (unaliased x y target source) ended
  | map o r f =>
    have ended := ends
    simp only [Step.exec, Accessor.mapped_eq] at ended
    exact ⟨mapThrough_ends regular restores scalar settled bound legal.1 legal.2 ended, pointers rfl⟩
  | flatMap o r f =>
    exact ⟨mapThrough_ends regular restores scalar settled bound legal.1 legal.2 ends, pointers rfl⟩

end Restoring

end Steps

/-! ### Runs -/

section Runs

variable {types R E impl} {allow : Bool} {b : Behaviour α (Thrown ε)} {bindings : Bindings} {s t : State α}
  {events : List (Step α ε × Option (Thrown ε))}

theorem bindings_encode (bound : s.ptr_ = encode bindings) : s.bindings = bindings := by
  funext o
  simp only [State.bindings, bound, encode, Function.comp_apply]
  cases bindings o with
  | none => rfl
  | some address => cases address <;> rfl

/-- Programs with optional references, whatever throws. The values, the bindings and the exceptions of a whole
run are those of the table, whichever objects its references share, but for what `T` throws and what that
leaves of the values. -/
theorem run_evaluates (regular : R.Regular E b) (restores : ∀ c, Spec.Restores b c)
    (scalar : E.isScalar = true → Builtin b)
    (run : ((program types allow E b impl).restrict fun step s =>
      step.Unaliased types s.bindings s.world.value).Run s events t)
    (settled : s.world.Settled) (bound : s.ptr_ = encode s.bindings) :
    t.ptr_ = encode t.bindings ∧ Leads types R E impl b s.bindings s.world.value events t.bindings t.world.value := by
  induction run with
  | nil => exact ⟨bound, rfl, rfl⟩
  | @cons s u t step threw rest legal ends tail ih =>
    obtain ⟨legal, unaliased⟩ := legal
    have next := Step.exec_settled ends legal settled
    obtain ⟨follows, pointers⟩ := Step.exec_follows regular restores scalar settled bound legal unaliased ends
    have rebound : u.bindings = step.rebind types s.bindings s.world.value := bindings_encode pointers
    obtain ⟨bound', later⟩ := ih next (by rw [pointers, rebound])
    rw [rebound] at later
    exact ⟨bound', u.world.value, follows, later⟩

end Runs

/-- `optional<int> o0(v); optional<int&> r1 = o0, r2 = r1; *r2 = w; x = *r1;` which throws, `r1 = none;` and
`x = r1.value();` which throws. -/
theorem run_evaluates_shared :
    ∃ s : State Int, (program oneType false (.nontrivial Int)
        (intLike fun calls _ => if calls.length = 2 then some (.user ()) else none) (.union true)).Run
        (State.initial (World.initial fun x => x))
        [(.owner (.operation (.valueCtor 0 (.var 0) .lvalue)), none), (.reference (.fromOptional 1 0), none),
          (.reference (.copyCtor 2 1), none), (.assign (.through 2 .get) (.direct (.var 5)) .lvalue .self, none),
          (.assign (.direct (.var 3)) (.through 1 .get) .lvalue .self, some (.user ())),
          (.reference (.assignNone 1), none),
          (.assign (.direct (.var 3)) (.through 1 .value) .lvalue .self, some .badOptionalAccess)] s ∧
      s.world.value (.var 3) = some 3 ∧ s.world.value (.contained (.named 0)) = some 5 ∧
      s.bindings 1 = some none ∧ s.bindings 2 = some (some (.contained (.named 0))) := by
  obtain ⟨s, run⟩ : ∃ s : State Int, ((program oneType false (.nontrivial Int)
        (intLike fun calls _ => if calls.length = 2 then some (.user ()) else none) (.union true)).restrict
      fun step s => step.Unaliased oneType s.bindings s.world.value).Run (State.initial (World.initial fun x => x))
        [(.owner (.operation (.valueCtor 0 (.var 0) .lvalue)), none), (.reference (.fromOptional 1 0), none),
          (.reference (.copyCtor 2 1), none), (.assign (.through 2 .get) (.direct (.var 5)) .lvalue .self, none),
          (.assign (.direct (.var 3)) (.through 1 .get) .lvalue .self, some (.user ())),
          (.reference (.assignNone 1), none),
          (.assign (.direct (.var 3)) (.through 1 .value) .lvalue .self, some .badOptionalAccess)] s := by
    refine ⟨_, .cons ⟨?_, ?_⟩ ⟨rfl, rfl⟩ (.cons ⟨?_, rfl⟩ ⟨rfl, rfl⟩ (.cons ⟨?_, rfl⟩ ⟨rfl, rfl⟩
      (.cons ⟨⟨⟨_, rfl⟩, rfl⟩, ?_⟩ ⟨rfl, rfl⟩ (.cons ⟨⟨rfl, ⟨_, rfl⟩⟩, ?_⟩ ⟨rfl, rfl⟩ (.cons ⟨?_, rfl⟩ ⟨rfl, rfl⟩
        (.cons ⟨⟨rfl, ?_⟩, ?_⟩ ⟨rfl, rfl⟩ (.nil _)))))))⟩
    · exact show (BoostOptional.Op.valueCtor 0 (.var 0) .lvalue).Legal _ ∧ _ from ⟨by decide, by decide⟩
    · exact show (BoostOptional.Op.valueCtor 0 (.var 0) .lvalue).Unaliased by decide
    · exact ⟨rfl, by decide, by decide, by decide⟩
    · exact ⟨rfl, by decide, by decide, by decide⟩
    · exact fun x y _ _ => .inr ⟨by simp, by simp⟩
    · exact fun x y _ _ => .inr ⟨by simp, by simp⟩
    · exact ⟨rfl, by decide, by decide, by decide⟩
    · exact show _ ≠ _ by decide
    · exact fun x y _ _ => .inr ⟨by simp, by simp⟩
  obtain ⟨-, v₁, made, v₂, bound, v₃, shared, v₄, written, v₅, threw, v₆, emptied, v₇, raised, bindings, last⟩ :=
    run_evaluates (intLike_regular _ _) (intLike_restores _) (intLike_strong _).scalar run (World.initial_settled _) rfl
  obtain rfl := made.returned
  obtain rfl := bound.returned
  obtain rfl := shared.returned
  obtain rfl := written.returned
  rcases threw with table | ⟨_, _, rfl⟩
  · cases congrArg Prod.snd table
  obtain rfl := emptied.returned
  rcases raised with table | ⟨never, _⟩
  · have computed : s.world.value = _ := last.trans (congrArg Prod.fst table)
    exact ⟨s, run.unrestrict, by rw [computed]; rfl, by rw [computed]; rfl, by rw [bindings]; rfl,
      by rw [bindings]; rfl⟩
  · cases never

end BoostOptional.ReferenceSpec
