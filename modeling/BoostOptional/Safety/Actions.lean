import BoostOptional.Safety.Occupancy

/-!
What each action of the document does to the occupancy, when it returns and when it throws. The
temporary that an implicit conversion makes and the temporary optional that a scalar is assigned
through are gone again on both exits.
-/

namespace BoostOptional
open Effect Prog Memory

variable {α ε : Type}

/-- The construction of a `T` from a `T` and the assignment of one do not throw. -/
def Builtin (b : Behaviour α ε) : Prop :=
  ∀ trace values dst v, v.ty = .self → (b trace (.construct .direct dst [v]) values).threw = none ∧
    (b trace (.assign dst v) values).threw = none

/-- `T`'s own constructors and assignments leave their operands unchanged when they throw. The value
in a `T` that is an optional counts as `T`'s own, and those of a scalar are built into the language. -/
structure Strong (E : Element α) (b : Behaviour α ε) : Prop where
  construct : ∀ dst v, v.ty ≠ .other → Spec.Restores b (.construct .direct dst [v])
  assign : ∀ dst v, v.ty ≠ .other → Spec.Restores b (.assign dst v)
  scalar : E.isScalar = true → Builtin b

namespace Spec

variable {s : State α} (b : Behaviour α ε) (strong : Prop)

/-- The arguments that reach `T` without a conversion by user code. -/
def Passing.own : Passing → ArgTy → Prop
  | .forwarded, ty => ty ≠ .other
  | .bound, ty => ty = .self

/-! ### Temporaries -/

theorem constructScratch_holds {v : Arg} (quiet : s.occupancy.scratch = false)
    (live : s.occupancy.live v.loc = true) :
    (constructT b .implicit .scratch [v] s).Holds
      (fun _ t => t.occupancy = { s.occupancy with scratch := true })
      (fun _ t => t.occupancy = s.occupancy) := by
  have operands : ∀ l ∈ [v].map Arg.loc, s.occupancy.live l = true := by simpa using live
  have empty : (value s .scratch).isSome = false := by rw [value_isSome]; exact quiet
  rw [constructT_eq, if_neg (by simp [empty]), if_pos (all_live operands)]
  dsimp only
  cases (b (trace s) (.construct .implicit .scratch [v]) (value s)).threw with
  | none => exact congrArg (fun k => { k with scratch := true }) (update_occupancy operands _)
  | some e => exact update_occupancy operands _

theorem destroyScratch_holds (live : s.occupancy.scratch = true) {E : ε → State α → Prop} :
    ((destroyT .scratch : Doc α ε Unit) s).Holds
      (fun _ t => t.occupancy = { s.occupancy with scratch := false }) E := by
  rw [destroyT_live (by rw [value_isSome]; exact live)]
  rfl

theorem pass_holds {p : Passing} {v : Arg} {body : Arg → Doc α ε Unit} (flag : ObjId → Option Bool)
    (quiet : s.occupancy.scratch = false) (live : s.occupancy.live v.loc = true)
    (own : strong → p.own v.ty)
    (spec : ∀ (u : Arg) (t : State α), t.occupancy.flag = s.occupancy.flag →
      t.occupancy.live u.loc = true →
      (strong → u.ty ≠ .other) → (body u t).Holds
        (fun _ r => r.occupancy = ⟨flag, t.occupancy.scratch⟩) (fun _ r => Undone strong t r)) :
    (pass b p v body s).Holds (fun _ t => t.occupancy = ⟨flag, s.occupancy.scratch⟩)
      (fun _ t => Undone strong s t) := by
  have converted : ¬ strong → ((do
      constructT b .implicit .scratch [v]
      bracket (body ⟨.scratch, .rvalue, .self⟩) (destroyT .scratch) : Doc α ε Unit) s).Holds
        (fun _ t => t.occupancy = ⟨flag, s.occupancy.scratch⟩) (fun _ t => Undone strong s t) := by
    intro weak
    refine holds_andThen ((constructScratch_holds b quiet live).mono (fun _ _ made => made)
      (fun _ _ same => ⟨same, fun strongly => (weak strongly).elim⟩)) ?_
    intro _ t made
    have inner := spec ⟨.scratch, .rvalue, .self⟩ t (by rw [made]) (by rw [made]; rfl) (fun _ => nofun)
    refine holds_bracket inner ?_ ?_
    · intro e r undone
      refine (destroyScratch_holds (by rw [undone.1, made])).mono (fun _ u gone => ⟨?_, ?_⟩)
        (fun _ _ none => none)
      · rw [gone, undone.1, made, ← quiet]
      · exact fun strongly => (weak strongly).elim
    · intro _ r done
      refine (destroyScratch_holds (by rw [done, made])).mono (fun _ u gone => ?_)
        (fun _ _ none => none)
      rw [gone, done, quiet]
  cases p with
  | forwarded => exact spec v s rfl live own
  | bound =>
    obtain ⟨src, cat, ty⟩ := v
    cases ty with
    | self => exact spec ⟨src, cat.bound, .self⟩ s rfl live fun _ => nofun
    | other | inner => exact converted fun strongly => nomatch own strongly

/-! ### Initializing and assigning the contained value -/

variable {E : Element α} (restores : strong → Strong E b)

include restores in
theorem createFrom_holds {p : Passing} {o : ObjId} {v : Arg} (quiet : s.occupancy.scratch = false)
    (empty : s.occupancy.flag o = some false) (live : s.occupancy.live v.loc = true)
    (own : strong → p.own v.ty) :
    (createFrom b p o v s).Holds (fun _ t => t.occupancy = s.occupancy.set o (some true))
      (fun _ t => Undone strong s t) := by
  refine pass_holds b strong (s.occupancy.set o (some true)).flag quiet live own
    fun u t flags liveU ownU => ?_
  refine (create_holds b strong (by rw [flags, empty]) (by simpa using liveU) fun strongly =>
    (restores strongly).construct _ u (ownU strongly)).mono (fun _ r made => ?_)
      (fun _ _ undone => undone)
  rw [made, Occupancy.set, Occupancy.set, flags]

include restores in
theorem updateFrom_holds {p : Passing} {o : ObjId} {v : Arg} (quiet : s.occupancy.scratch = false)
    (full : s.occupancy.flag o = some true) (live : s.occupancy.live v.loc = true)
    (own : strong → p.own v.ty) :
    (updateFrom b p o v s).Holds (fun _ t => t.occupancy = s.occupancy.set o (some true))
      (fun _ t => Undone strong s t) := by
  refine pass_holds b strong (s.occupancy.set o (some true)).flag quiet live own
    fun u t flags liveU ownU => ?_
  have here : t.occupancy.live (.contained o) = true := by simp [Occupancy.live, flags, full]
  refine (assignT_holds b strong here liveU fun strongly =>
    (restores strongly).assign _ u (ownU strongly)).mono
    (fun _ r same => ?_) (fun _ _ undone => undone)
  rw [same, Occupancy.set_flag full, ← flags]

/-! ### Constructors -/

theorem newOptional_holds {o : ObjId} {body : Doc α ε Unit} {init : Bool}
    (absent : s.occupancy.flag o = none)
    (built : ∀ t : State α, t.occupancy = s.occupancy.set o (some false) →
      (body t).Holds (fun _ r => r.occupancy = t.occupancy.set o (some init))
        (fun _ r => Undone strong t r)) :
    (newOptional o body s).Holds (fun _ t => t.occupancy = s.occupancy.set o (some init))
      (fun _ t => Undone strong s t) := by
  have fresh : (s.setContent o (some none)).occupancy = s.occupancy.set o (some false) :=
    setContent_occupancy s o (some none)
  simp only [newOptional, bind_apply]
  rw [andThen_ok (appear_holds absent)]
  refine (holds_onThrow (built _ fresh) ?_).mono (fun _ t made => ?_) (fun _ _ undone => undone)
  · intro e r undone
    have empty : r.occupancy.flag o = some false := by rw [undone.1, fresh, Occupancy.set_same]
    rw [vanish_holds empty]
    refine ⟨?_, fun strongly => ?_⟩
    · rw [setContent_occupancy, undone.1, fresh, Occupancy.set_set]
      exact Occupancy.set_flag absent
    · have before : (s.content o).join = none := by rw [content_of_absent absent]; rfl
      have after : (r.content o).join = none := by rw [content_of_empty empty]; rfl
      have same := undone.2 strongly
      funext l
      have here := congrFun same l
      cases l with
      | contained p =>
        simp only [value, State.value, State.setContent] at here ⊢
        split
        · rename_i member
          rw [member, before]
          rfl
        · rename_i other
          simpa only [if_neg other] using here
      | var x => exact here
      | scratch => exact here
  · rw [made, fresh, Occupancy.set_set]

include restores in
theorem newValue_holds {p : Passing} {o : ObjId} {v : Arg} (quiet : s.occupancy.scratch = false)
    (absent : s.occupancy.flag o = none) (live : s.occupancy.live v.loc = true)
    (own : strong → p.own v.ty) :
    (newOptional o (createFrom b p o v) s).Holds
      (fun _ t => t.occupancy = s.occupancy.set o (some true))
      (fun _ t => Undone strong s t) := by
  refine newOptional_holds strong absent fun t fresh => ?_
  refine createFrom_holds b strong restores (by rw [fresh]; exact quiet)
    (by rw [fresh, Occupancy.set_same]) ?_ own
  rw [fresh, Occupancy.live_set _ _ (Occupancy.live_apart absent live), live]

theorem newInPlace_holds {how : Init} {o : ObjId} {args : List Arg} (absent : s.occupancy.flag o = none)
    (live : ∀ v ∈ args, s.occupancy.live v.loc = true) :
    (newOptional o (create b how o args) s).Holds
      (fun _ t => t.occupancy = s.occupancy.set o (some true))
      (fun _ t => Undone False s t) := by
  refine newOptional_holds False absent fun t fresh => ?_
  refine create_holds b False (by rw [fresh, Occupancy.set_same]) (fun v member => ?_) False.elim
  rw [fresh, Occupancy.live_set _ _ (Occupancy.live_apart absent (live v member)), live v member]

theorem newEmpty_holds {o : ObjId} (absent : s.occupancy.flag o = none) :
    (newOptional o (pure () : Doc α ε Unit) s).Holds
      (fun _ t => t.occupancy = s.occupancy.set o (some false))
      (fun _ t => Undone strong s t) :=
  newOptional_holds strong absent fun t fresh => by
    rw [fresh, Occupancy.set_set]
    exact fresh

include restores in
theorem newFrom_holds {p : Passing} {o rhs : ObjId} {cat : Cat} {ty : ArgTy} {init : Bool}
    (quiet : s.occupancy.scratch = false) (absent : s.occupancy.flag o = none)
    (here : s.occupancy.flag rhs = some init) (own : strong → p.own ty) :
    (newFrom b p o (engaged rhs) ⟨.contained rhs, cat, ty⟩ s).Holds
      (fun _ t => t.occupancy = s.occupancy.set o (some init)) (fun _ t => Undone strong s t) := by
  have apart : rhs ≠ o := fun same => by simp [same, absent] at here
  have content : ∃ c, s.content rhs = some c ∧ c.isSome = init := by
    simpa [State.occupancy] using here
  obtain ⟨c, content, rfl⟩ := content
  rw [newFrom_eq b p _ apart content]
  cases c with
  | none => exact newEmpty_holds strong absent
  | some v => exact newValue_holds b strong restores quiet absent (by simp [Occupancy.live, here]) own

theorem appear_occupancy {o : ObjId} (absent : s.occupancy.flag o = none) {E : ε → State α → Prop} :
    ((appear o : Doc α ε Unit) s).Holds
      (fun _ t => t.occupancy = s.occupancy.set o (some false)) E := by
  rw [appear_holds absent]
  exact setContent_occupancy s o (some none)

theorem destroy_holds {o : ObjId} {init : Bool} (here : s.occupancy.flag o = some init)
    {E : ε → State α → Prop} :
    ((destroy o : Doc α ε Unit) s).Holds (fun _ t => t.occupancy = s.occupancy.set o none) E := by
  refine holds_andThen (clear_holds here) fun _ t cleared => ?_
  rw [vanish_holds (by rw [cleared, Occupancy.set_same])]
  change (t.setContent o none).occupancy = _
  rw [setContent_occupancy, cleared, Occupancy.set_set]
  rfl

/-! ### Assignment -/

include restores in
theorem assignFrom_holds {p : Passing} {this : ObjId} {rhsHasValue : Doc α ε Bool} {v : Arg}
    {init has : Bool}
    (quiet : s.occupancy.scratch = false) (here : s.occupancy.flag this = some init)
    (test : rhsHasValue s = .ok has s) (live : has = true → s.occupancy.live v.loc = true)
    (own : strong → p.own v.ty) :
    (assignFrom b p this rhsHasValue v s).Holds
      (fun _ t => t.occupancy = s.occupancy.set this (some has))
      (fun _ t => Undone strong s t) := by
  simp only [assignFrom, bind_apply]
  rw [andThen_ok (engaged_holds here)]
  cases init with
  | true =>
    simp only [if_true, bind_apply]
    rw [andThen_ok test]
    cases has with
    | true => exact updateFrom_holds b strong restores quiet here (live rfl) own
    | false => exact clear_holds here
  | false =>
    simp only [if_false, Bool.false_eq_true, bind_apply]
    rw [andThen_ok test]
    cases has with
    | true => exact createFrom_holds b strong restores quiet here (live rfl) own
    | false => exact (Occupancy.set_flag here).symm

include restores in
theorem assignValue_holds {p q : Passing} {this : ObjId} {v : Arg} {init : Bool}
    (quiet : s.occupancy.scratch = false) (here : s.occupancy.flag this = some init)
    (live : s.occupancy.live v.loc = true) (own : strong → p.own v.ty ∧ q.own v.ty) :
    (assignValue b p q this v s).Holds (fun _ t => t.occupancy = s.occupancy.set this (some true))
      (fun _ t => Undone strong s t) := by
  simp only [assignValue, bind_apply]
  rw [andThen_ok (engaged_holds here)]
  cases init with
  | true => exact updateFrom_holds b strong restores quiet here live fun strongly => (own strongly).1
  | false => exact createFrom_holds b strong restores quiet here live fun strongly => (own strongly).2

theorem innerHasValue_holds (hasValue : α → Bool) {l : Loc} (live : s.occupancy.live l = true) :
    ∃ has, (innerHasValue hasValue l : Doc α ε Bool) s = .ok has s := by
  rw [← value_isSome, Option.isSome_iff_exists] at live
  obtain ⟨v, held⟩ := live
  exact ⟨hasValue v, by simp [innerHasValue, held]⟩

theorem assignFrom_silent (builtin : Builtin b) {this : ObjId} {rhsHasValue : Doc α ε Bool} {v : Arg}
    {init has : Bool} (here : s.occupancy.flag this = some init) (test : rhsHasValue s = .ok has s)
    (own : v.ty = .self) {e : ε} {t : State α} :
    assignFrom b .forwarded this rhsHasValue v s ≠ .thrown e t := by
  -- A scalar is assigned without a throw, so the temporary optional is moved from without one.
  simp only [assignFrom, bind_apply]
  rw [andThen_ok (engaged_holds here)]
  cases init with
  | true =>
    simp only [if_true, bind_apply]
    rw [andThen_ok test]
    cases has with
    | true =>
      simp only [if_true, updateFrom, pass, assign, assignT_eq, (builtin _ _ _ _ own).2]
      split <;> simp
    | false =>
      simp only [if_false, Bool.false_eq_true, clear, destroyT]
      repeat' split
      all_goals simp
  | false =>
    simp only [if_false, Bool.false_eq_true, bind_apply]
    rw [andThen_ok test]
    cases has with
    | true =>
      simp only [if_true, createFrom, pass, create, constructT_eq, (builtin _ _ _ _ own).1]
      repeat' split
      all_goals simp
    | false => simp

include restores in
theorem unionAssignFromT_holds {this : ObjId} {v : Arg} {init : Bool}
    (quiet : s.occupancy.scratch = false) (apart : this ≠ .temporary)
    (unused : s.occupancy.flag .temporary = none) (here : s.occupancy.flag this = some init)
    (live : s.occupancy.live v.loc = true) (own : v.ty = .self) :
    (unionAssignFromT b E this v s).Holds
      (fun _ t => ∃ has, t.occupancy = s.occupancy.set this (some has))
      (fun _ t => Undone strong s t) := by
  unfold unionAssignFromT
  split
  · rename_i scalar
    have made : (newOptional .temporary (create b .direct .temporary [{ v with cat := v.cat.bound }]) s).Holds
        (fun _ t => t.occupancy = s.occupancy.set .temporary (some true))
        (fun _ t => Undone strong s t) := by
      refine newOptional_holds strong unused fun t fresh => ?_
      refine create_holds b strong (by rw [fresh, Occupancy.set_same]) ?_ fun strongly =>
        (restores strongly).construct _ _ (by simp [own])
      simpa [fresh, Occupancy.live_set _ _ (Occupancy.live_apart unused live)] using live
    refine holds_andThen made fun _ t temporary => ?_
    have present : t.occupancy.flag .temporary = some true := by rw [temporary, Occupancy.set_same]
    have before : t.occupancy.flag this = some init := by
      rw [temporary, Occupancy.set_other _ _ apart, here]
    have moved : (assignFrom b .forwarded this (engaged .temporary)
      ⟨.contained .temporary, .rvalue, .self⟩ t).Holds
        (fun _ u => u.occupancy = t.occupancy.set this (some true))
        (fun _ u => u.occupancy = t.occupancy ∧ ¬ strong) := by
      have runs := assignFrom_holds b False (E := E) False.elim (p := .forwarded)
        (v := ⟨.contained .temporary, .rvalue, .self⟩)
        (by rw [temporary]; exact quiet) before
        (engaged_holds present) (fun _ => by simp [Occupancy.live, present]) False.elim
      cases outcome : assignFrom b .forwarded this (engaged .temporary) ⟨.contained .temporary, .rvalue, .self⟩ t with
      | ok _ u => simpa [outcome] using runs
      | fault f => simp [outcome] at runs
      | thrown e u =>
        have undone : Undone False t u := by simpa [outcome] using runs
        exact ⟨undone.1, fun strongly =>
          assignFrom_silent b ((restores strongly).scalar scalar) before
            (engaged_holds present) rfl outcome⟩
    refine holds_bracket moved (fun e u failed => ?_) fun _ u assigned => ?_
    · have there : u.occupancy.flag .temporary = some true := by rw [failed.1, present]
      refine (destroy_holds there).mono (fun _ r gone => ⟨?_, fun strongly => (failed.2 strongly).elim⟩)
        (fun _ _ none => none)
      rw [gone, failed.1, temporary, Occupancy.set_set, Occupancy.set_flag unused]
    · have there : u.occupancy.flag .temporary = some true := by
        rw [assigned, Occupancy.set_other _ _ apart.symm, present]
      refine (destroy_holds there).mono (fun _ r gone => ⟨true, ?_⟩) (fun _ _ none => none)
      rw [gone, assigned, temporary, Occupancy.set_comm _ apart, Occupancy.set_set,
        Occupancy.set_flag unused]
  · obtain ⟨src, cat, ty⟩ := v
    obtain rfl : ty = .self := own
    have whole := fun value => assignValue_holds b strong restores (p := .forwarded) (q := .forwarded)
      (v := ⟨src, value, .self⟩) quiet here live (fun _ => by simp [Passing.own])
    cases E.hasValue with
    | none => exact (whole cat).mono (fun _ _ done => ⟨true, done⟩) (fun _ _ undone => undone)
    | some hasValue =>
      obtain ⟨has, test⟩ := innerHasValue_holds (ε := ε) hasValue live
      have inner := fun value => assignFrom_holds b strong restores (p := .forwarded)
        (v := ⟨src, value, .inner⟩) quiet here
        test (fun _ => live) (fun _ => by simp [Passing.own])
      cases cat with
      | lvalue => exact (whole .lvalue).mono (fun _ _ done => ⟨true, done⟩) (fun _ _ undone => undone)
      | constLvalue | rvalue =>
        exact (inner _).mono (fun _ _ done => ⟨has, done⟩) (fun _ _ undone => undone)

/-! ### Emplacement and swap -/

theorem emplace_holds (how : Init) {this : ObjId} {args : List Arg} {init : Bool}
    (here : s.occupancy.flag this = some init) (live : ∀ v ∈ args, s.occupancy.live v.loc = true)
    (free : ∀ v ∈ args, v.loc ≠ .contained this) :
    (emplace b how this args s).Holds (fun _ t => t.occupancy = s.occupancy.set this (some true))
      (fun _ t => t.occupancy = s.occupancy.set this (some false)) := by
  refine holds_andThen (clear_holds here) fun _ t cleared => ?_
  refine (create_holds b False (by rw [cleared, Occupancy.set_same]) ?_ False.elim).mono
    (fun _ r made => ?_) (fun _ r undone => ?_)
  · intro v member
    rw [cleared, Occupancy.live_set _ _ (free v member), live v member]
  · rw [made, cleared, Occupancy.set_set]
  · rw [undone.1, cleared]

def Occupancy.Apart (k k' : Occupancy) (x y : ObjId) : Prop :=
  k'.scratch = k.scratch ∧ ∀ o, o ≠ x → o ≠ y → k'.flag o = k.flag o

theorem Occupancy.Apart.refl (k : Occupancy) (x y : ObjId) : k.Apart k x y := ⟨rfl, fun _ _ _ => rfl⟩

theorem Occupancy.Apart.set {k k' : Occupancy} {x y o : ObjId} (apart : k.Apart k' x y)
    (init : Option Bool)
    (either : o = x ∨ o = y) : k.Apart (k'.set o init) x y := by
  refine ⟨apart.1, fun p px py => ?_⟩
  rw [Occupancy.set_other _ _ (by rcases either with rfl | rfl <;> assumption)]
  exact apart.2 p px py

theorem transfer_holds {dst src x y : ObjId} (empty : s.occupancy.flag dst = some false)
    (full : s.occupancy.flag src = some true) (dstOf : dst = x ∨ dst = y) (srcOf : src = x ∨ src = y) :
    (transfer b dst src s).Holds (fun _ t => s.occupancy.Apart t.occupancy x y)
      (fun _ t => s.occupancy.Apart t.occupancy x y) := by
  have apart : src ≠ dst := fun same => by simp [same, empty] at full
  refine holds_andThen ((create_holds b False empty (by simp [Occupancy.live, full]) False.elim).mono
    (fun _ _ made => made) fun _ t undone => by rw [undone.1]; exact .refl _ _ _) fun _ t made => ?_
  have there : t.occupancy.flag src = some true := by rw [made, Occupancy.set_other _ _ apart, full]
  refine (clear_holds there).mono (fun _ r cleared => ?_) (fun _ _ apart => apart)
  rw [cleared, made]
  exact ((Occupancy.Apart.refl _ _ _).set _ dstOf).set _ srcOf

theorem exchange_holds {x y : ObjId} (fullX : s.occupancy.flag x = some true)
    (fullY : s.occupancy.flag y = some true) :
    (invokeSwap b (.contained x) (.contained y) s).Holds (fun _ t => t.occupancy = s.occupancy)
      (fun _ t => t.occupancy = s.occupancy) :=
  invokeSwap_holds b (by simp [Occupancy.live, fullX]) (by simp [Occupancy.live, fullY])

theorem swap_holds {x y : ObjId} {hasX hasY : Bool} (hereX : s.occupancy.flag x = some hasX)
    (hereY : s.occupancy.flag y = some hasY) :
    (swap b x y s).Holds (fun _ t => s.occupancy.Apart t.occupancy x y)
      (fun _ t => s.occupancy.Apart t.occupancy x y) := by
  rw [swap_eq b (engaged_holds hereX) (engaged_holds hereY)]
  cases hasX with
  | true =>
    cases hasY with
    | true =>
      refine (exchange_holds b hereX hereY).mono (fun _ t same => ?_) (fun _ t same => ?_) <;>
        (rw [same]; exact .refl _ _ _)
    | false => exact transfer_holds b hereY hereX (.inr rfl) (.inl rfl)
  | false =>
    cases hasY with
    | true => exact transfer_holds b hereX hereY (.inl rfl) (.inr rfl)
    | false => exact .refl _ _ _

theorem throughDefault_holds {dst src x y : ObjId} (empty : s.occupancy.flag dst = some false)
    (full : s.occupancy.flag src = some true) (sides : dst = x ∧ src = y ∨ dst = y ∧ src = x) :
    ((do create b .direct dst []; invokeSwap b (.contained x) (.contained y); clear src : Doc α ε Unit) s).Holds
      (fun _ t => s.occupancy.Apart t.occupancy x y)
      (fun _ t => s.occupancy.Apart t.occupancy x y) := by
  have apart : src ≠ dst := fun same => by simp [same, empty] at full
  have dstOf : dst = x ∨ dst = y := sides.imp And.left And.left
  have srcOf : src = x ∨ src = y := (sides.imp And.right And.right).symm
  refine holds_andThen ((create_holds b False empty (by simp) False.elim).mono
    (fun _ _ made => made) fun _ t undone => by rw [undone.1]; exact .refl _ _ _) fun _ t made => ?_
  have fullDst : t.occupancy.flag dst = some true := by rw [made, Occupancy.set_same]
  have fullSrc : t.occupancy.flag src = some true := by rw [made, Occupancy.set_other _ _ apart, full]
  have swapped : (invokeSwap b (.contained x) (.contained y) t).Holds
    (fun _ u => u.occupancy = t.occupancy)
      (fun _ u => u.occupancy = t.occupancy) := by
    rcases sides with ⟨rfl, rfl⟩ | ⟨rfl, rfl⟩
    · exact exchange_holds b fullDst fullSrc
    · exact exchange_holds b fullSrc fullDst
  refine holds_andThen (swapped.mono (fun _ _ same => same) fun _ u same => ?_) fun _ u same => ?_
  · rw [same, made]
    exact (Occupancy.Apart.refl _ _ _).set _ dstOf
  · refine (clear_holds (by rw [same, fullSrc])).mono (fun _ r cleared => ?_) (fun _ _ apart => apart)
    rw [cleared, same, made]
    exact ((Occupancy.Apart.refl _ _ _).set _ dstOf).set _ srcOf

theorem swapDefault_holds {x y : ObjId} {hasX hasY : Bool} (hereX : s.occupancy.flag x = some hasX)
    (hereY : s.occupancy.flag y = some hasY) :
    (swapDefault b x y s).Holds (fun _ t => s.occupancy.Apart t.occupancy x y)
      (fun _ t => s.occupancy.Apart t.occupancy x y) := by
  rw [swapDefault_eq b (engaged_holds hereX) (engaged_holds hereY)]
  cases hasX with
  | true =>
    cases hasY with
    | true =>
      refine (exchange_holds b hereX hereY).mono (fun _ t same => ?_) (fun _ t same => ?_) <;>
        (rw [same]; exact .refl _ _ _)
    | false => exact throughDefault_holds b hereY hereX (.inr ⟨rfl, rfl⟩)
  | false =>
    cases hasY with
    | true => exact throughDefault_holds b hereX hereY (.inl ⟨rfl, rfl⟩)
    | false => exact .refl _ _ _

end Spec

end BoostOptional
