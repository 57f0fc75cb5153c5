import BoostOptional.Effect.Preservation
import BoostOptional.Engagement.Flags
import BoostOptional.Elementary.Histories
import BoostOptional.Safety.Exceptions

/-!
References to the contained value. While an optional stays engaged, and no operation replaces its
value, the `T` in it stays the same object: it is assigned to and swapped, but not destroyed and
made anew. A reference or a pointer to it stays valid.
-/

namespace BoostOptional
open Effect Prog Memory

variable {α ε : Type} (b : Behaviour α ε)

namespace Spec

/-- No destructor was called on the value of `p`. -/
def Spares (p : ObjId) (s t : State α) : Prop := destructions t.trace p = destructions s.trace p

instance Spares.refl (p : ObjId) : Std.Refl (Spares (α := α) p) := ⟨fun _ => rfl⟩

instance Spares.trans (p : ObjId) : IsTrans (State α) (Spares p) :=
  ⟨fun _ _ _ first second => Eq.trans second first⟩

variable {p o : ObjId}

theorem spares_log {s t : State α} {c : Call} (same : t.trace = s.trace) (other : c ≠ .destroy (.contained p)) :
    Spares p s (log t c) := by
  change destructions (c :: t.trace) p = _
  rw [same]
  exact List.count_cons_of_ne other

theorem userCall_spares {c : Call} (other : c ≠ .destroy (.contained p)) :
    Keeps (Spares p) (userCall b c : Doc α ε (Reply α ε)) := by
  intro s
  unfold userCall
  split
  · exact spares_log rfl other
  · trivial

theorem settle_spares (reply : Reply α ε) : Keeps (Spares p) (settle reply : Doc α ε Unit) := by
  intro s
  unfold settle
  cases reply.threw with
  | none => exact refl_of (Spares p) s
  | some e => exact refl_of (Spares p) s

theorem constructT_spares (how : Init) (dst : Loc) (args : List Arg) :
    Keeps (Spares p) (constructT b how dst args : Doc α ε Unit) := by
  refine keeps_bind (fun s => ?_) fun _ => keeps_bind (userCall_spares b nofun) fun reply =>
    keeps_bind (settle_spares reply) fun _ s => ?_
  · unfold vacant
    split
    · trivial
    · exact refl_of (Spares p) s
  · cases dst <;> exact refl_of (Spares p) s

theorem assignT_spares (dst : Loc) (v : Arg) : Keeps (Spares p) (assignT b dst v : Doc α ε Unit) :=
  keeps_bind (userCall_spares b nofun) fun reply => settle_spares reply

theorem invokeSwap_spares (x y : Loc) : Keeps (Spares p) (invokeSwap b x y : Doc α ε Unit) :=
  keeps_bind (userCall_spares b nofun) fun reply => settle_spares reply

theorem destroyT_spares {dst : Loc} (other : dst ≠ .contained p) :
    Keeps (Spares p) (destroyT dst : Doc α ε Unit) := by
  intro s
  unfold destroyT
  split
  · refine spares_log ?_ fun same => other (Call.destroy.inj same)
    cases dst <;> rfl
  · trivial

theorem bindParam_spares (v : Arg) {body : Arg → Doc α ε Unit} (inner : ∀ v, Keeps (Spares p) (body v)) :
    Keeps (Spares p) (bindParam b v body) := by
  unfold bindParam
  cases v.ty with
  | self => exact inner _
  | other | inner =>
    exact keeps_bind (constructT_spares b _ _ _) fun _ s =>
      kept_bracket (inner _ s) (destroyT_spares nofun)

theorem engaged_spares : Keeps (Spares p) (engaged o : Doc α ε Bool) := by
  intro s
  unfold engaged
  split
  · exact refl_of (Spares p) s
  · trivial

theorem appear_spares : Keeps (Spares p) (appear o : Doc α ε Unit) := by
  intro s
  unfold appear
  split
  · exact refl_of (Spares p) s
  · trivial

theorem vanish_spares : Keeps (Spares p) (vanish o : Doc α ε Unit) := by
  intro s
  unfold vanish
  split
  · exact refl_of (Spares p) s
  · trivial

theorem create_spares (how : Init) (args : List Arg) : Keeps (Spares p) (create b how o args) := by
  intro s
  unfold create
  split
  · exact constructT_spares b _ _ _ s
  · trivial

theorem clear_spares (other : o ≠ p) : Keeps (Spares p) (clear o : Doc α ε Unit) := by
  intro s
  unfold clear
  split
  · trivial
  · exact refl_of (Spares p) s
  · exact destroyT_spares (fun same => other (Loc.contained.inj same)) s

theorem innerHasValue_spares (hasValue : α → Bool) (l : Loc) :
    Keeps (Spares p) (innerHasValue hasValue l : Doc α ε Bool) := by
  intro s
  unfold innerHasValue
  split
  · exact refl_of (Spares p) s
  · trivial

/-! ### The actions of the document -/

theorem pass_spares (q : Passing) (v : Arg) {body : Arg → Doc α ε Unit}
    (inner : ∀ v, Keeps (Spares p) (body v)) : Keeps (Spares p) (pass b q v body) := by
  cases q with
  | forwarded => exact inner v
  | bound => exact bindParam_spares b v inner

theorem createFrom_spares (q : Passing) (v : Arg) : Keeps (Spares p) (createFrom b q o v) :=
  pass_spares b q v fun _ => create_spares b _ _

theorem updateFrom_spares (q : Passing) (v : Arg) : Keeps (Spares p) (updateFrom b q o v) :=
  pass_spares b q v fun _ => assignT_spares b _ _

theorem newOptional_spares {body : Doc α ε Unit} (inner : Keeps (Spares p) body) :
    Keeps (Spares p) (newOptional o body) :=
  keeps_bind appear_spares fun _ s => kept_onThrow (inner s) vanish_spares

theorem destroy_spares (other : o ≠ p) : Keeps (Spares p) (destroy o : Doc α ε Unit) :=
  keeps_bind (clear_spares other) fun _ => vanish_spares

theorem newFrom_spares (q : Passing) {test : Doc α ε Bool} (v : Arg) (tests : Keeps (Spares p) test) :
    Keeps (Spares p) (newFrom b q o test v) :=
  newOptional_spares (keeps_bind tests fun _ => keeps_ite (createFrom_spares b q v) (keeps_pure _))

theorem assignFrom_spares (q : Passing) {test : Doc α ε Bool} (v : Arg) (tests : Keeps (Spares p) test)
    (other : o ≠ p) : Keeps (Spares p) (assignFrom b q o test v) := by
  refine keeps_bind engaged_spares fun _ => keeps_ite ?_ ?_
  · exact keeps_bind tests fun _ => keeps_ite (updateFrom_spares b q v) (clear_spares other)
  · exact keeps_bind tests fun _ => keeps_ite (createFrom_spares b q v) (keeps_pure _)

theorem assignValue_spares (q r : Passing) (v : Arg) : Keeps (Spares p) (assignValue b q r o v) :=
  keeps_bind engaged_spares fun _ => keeps_ite (updateFrom_spares b q v) (createFrom_spares b r v)

theorem emplace_spares (how : Init) (args : List Arg) (other : o ≠ p) :
    Keeps (Spares p) (emplace b how o args) :=
  keeps_bind (clear_spares other) fun _ => create_spares b _ _

theorem unionAssignFromT_spares (E : Element α) (v : Arg) (named : .temporary ≠ p) (other : o ≠ p) :
    Keeps (Spares p) (unionAssignFromT b E o v) := by
  refine keeps_ite ?_ ?_
  · refine keeps_bind (newOptional_spares (create_spares b _ _)) fun _ s => ?_
    exact kept_bracket (assignFrom_spares b .forwarded _ engaged_spares other s) (destroy_spares named)
  · cases E.hasValue with
    | none => exact assignValue_spares b _ _ v
    | some hasValue =>
      cases v.cat with
      | lvalue => exact assignValue_spares b _ _ v
      | constLvalue | rvalue => exact assignFrom_spares b _ _ (innerHasValue_spares _ _) other

theorem transfer_spares {src : ObjId} (other : src ≠ p) : Keeps (Spares p) (transfer b o src) :=
  keeps_bind (create_spares b _ _) fun _ => clear_spares other

theorem swap_spares {x y : ObjId} (otherX : x ≠ p) (otherY : y ≠ p) : Keeps (Spares p) (swap b x y) := by
  refine keeps_bind engaged_spares fun _ => keeps_ite ?_ ?_
  · exact keeps_bind engaged_spares fun _ =>
      keeps_ite (invokeSwap_spares b _ _) (transfer_spares b otherX)
  · exact keeps_bind engaged_spares fun _ => keeps_ite (transfer_spares b otherY) (keeps_pure _)

theorem swapDefault_spares {x y : ObjId} (otherX : x ≠ p) (otherY : y ≠ p) :
    Keeps (Spares p) (swapDefault b x y) := by
  have through : ∀ dst src, src ≠ p → Keeps (Spares p) (do
      create b .direct dst []
      invokeSwap b (.contained x) (.contained y)
      clear src : Doc α ε Unit) := fun dst src other =>
    keeps_bind (create_spares b _ _) fun _ => keeps_bind (invokeSwap_spares b _ _) fun _ =>
      clear_spares other
  refine keeps_bind engaged_spares fun _ => keeps_ite ?_ ?_
  · exact keeps_bind engaged_spares fun _ => keeps_ite (invokeSwap_spares b _ _) (through y x otherX)
  · exact keeps_bind engaged_spares fun _ => keeps_ite (through x y otherY) (keeps_pure _)

/-! ### An engaged optional -/

/-- If `p` is engaged afterwards, its value was not destroyed. -/
def Stays (p : ObjId) (s t : State α) : Prop := t.occupancy.flag p = some true → Spares p s t

variable {s : State α}

theorem stays_of_spares {c : Doc α ε Unit} (keeps : Keeps (Spares p) c) : (c s).Kept (Stays p) s :=
  (keeps s).mono fun _ spared _ => spared

theorem clear_stays {init : Bool} (here : s.occupancy.flag p = some init) :
    ((clear p : Doc α ε Unit) s).Kept (Stays p) s := by
  refine (clear_holds (ε := ε) here (E := fun _ _ => False)).kept (fun _ t cleared engaged => ?_)
    fun _ _ none => none.elim
  rw [cleared, Occupancy.set_same] at engaged
  cases engaged

theorem destroy_stays {init : Bool} (here : s.occupancy.flag p = some init) :
    ((destroy p : Doc α ε Unit) s).Kept (Stays p) s := by
  refine (destroy_holds (ε := ε) here (E := fun _ _ => False)).kept (fun _ t gone engaged => ?_)
    fun _ _ none => none.elim
  rw [gone, Occupancy.set_same] at engaged
  cases engaged

/-- An engaged target is assigned to when the source has a value. -/
theorem assignFrom_updates {r : ObjId} (q : Passing) {test : Doc α ε Bool} (v : Arg)
    (full : s.occupancy.flag r = some true) (tested : test s = .ok true s) :
    (assignFrom b q r test v s).Kept (Spares p) s := by
  simp only [assignFrom, bind_apply]
  rw [andThen_ok (engaged_holds full)]
  simp only [if_true, bind_apply]
  rw [andThen_ok tested]
  exact updateFrom_spares b q v s

theorem assignFrom_stays (q : Passing) {test : Doc α ε Bool} {has : Bool} (v : Arg)
    (full : s.occupancy.flag p = some true) (tested : test s = .ok has s) :
    (assignFrom b q p test v s).Kept (Stays p) s := by
  cases has with
  | true => exact (assignFrom_updates b q v full tested).mono fun _ spared _ => spared
  | false =>
    simp only [assignFrom, bind_apply]
    rw [andThen_ok (engaged_holds full)]
    simp only [if_true, bind_apply]
    rw [andThen_ok tested]
    exact clear_stays full

/-- As long as the value is spared, it matters only what comes last. -/
theorem stays_andThen {c : Doc α ε Unit} {next : Unit → Doc α ε Unit} (first : Keeps (Spares p) c)
    (rest : ∀ value t, c s = .ok value t → (next value t).Kept (Stays p) t) :
    (andThen c next s).Kept (Stays p) s := by
  have spared := first s
  cases run : c s with
  | ok value t =>
    rw [run] at spared
    rw [andThen_ok run]
    exact (rest value t run).mono fun u stays engaged => trans_of (Spares p) spared (stays engaged)
  | thrown e t =>
    rw [run] at spared
    rw [andThen_thrown run]
    exact fun _ => spared
  | fault =>
    rw [andThen_fault run]
    trivial

/-- In the swap of an engaged optional with an empty one, its value moves out and is destroyed. -/
theorem transfer_stays (full : s.occupancy.flag p = some true) (empty : s.occupancy.flag o = some false) :
    (transfer b o p s).Kept (Stays p) s := by
  have apart : p ≠ o := fun same => by simp [same, empty] at full
  refine stays_andThen (create_spares b _ _) fun _ t run => ?_
  have made : (create b .direct o [⟨.contained p, .rvalue, .self⟩] s).Holds _ _ :=
    create_holds b False empty (by simp [Occupancy.live, full]) False.elim
  rw [run, holds_ok] at made
  have fullP : t.occupancy.flag p = some true := by rw [made, Occupancy.set_other _ _ apart, full]
  exact clear_stays fullP

theorem swap_stays {x y : ObjId} {hasX hasY : Bool} (hereX : s.occupancy.flag x = some hasX)
    (hereY : s.occupancy.flag y = some hasY) (full : s.occupancy.flag p = some true) :
    (swap b x y s).Kept (Stays p) s := by
  by_cases apart : x ≠ p ∧ y ≠ p
  · exact stays_of_spares (swap_spares b apart.1 apart.2)
  · rw [swap_eq b (engaged_holds hereX) (engaged_holds hereY)]
    cases hasX with
    | true =>
      cases hasY with
      | true => exact stays_of_spares (invokeSwap_spares b _ _)
      | false =>
        have other : y ≠ p := fun same => by simp [same, full] at hereY
        obtain rfl : x = p := by tauto
        exact transfer_stays b full hereY
    | false =>
      cases hasY with
      | true =>
        have other : x ≠ p := fun same => by simp [same, full] at hereX
        obtain rfl : y = p := by tauto
        exact transfer_stays b full hereX
      | false =>
        have otherX : x ≠ p := fun same => by simp [same, full] at hereX
        have otherY : y ≠ p := fun same => by simp [same, full] at hereY
        exact (apart ⟨otherX, otherY⟩).elim

/-- The swap through a default-constructed `T`, of an engaged optional with an empty one. -/
theorem throughDefault_stays {x y : ObjId} (full : s.occupancy.flag p = some true)
    (empty : s.occupancy.flag o = some false) (sides : p = x ∧ o = y ∨ p = y ∧ o = x) :
    ((do create b .direct o []; invokeSwap b (.contained x) (.contained y); clear p : Doc α ε Unit) s).Kept
      (Stays p) s := by
  have apart : p ≠ o := fun same => by simp [same, empty] at full
  refine stays_andThen (create_spares b _ _) fun _ t run => ?_
  have made : (create b .direct o [] s).Holds _ _ := create_holds b False empty (by simp) False.elim
  rw [run, holds_ok] at made
  have fullP : t.occupancy.flag p = some true := by rw [made, Occupancy.set_other _ _ apart, full]
  have fullO : t.occupancy.flag o = some true := by rw [made, Occupancy.set_same]
  refine stays_andThen (invokeSwap_spares b _ _) fun _ u run => ?_
  have swapped : (invokeSwap b (.contained x) (.contained y) t).Holds
      (fun _ u => u.occupancy = t.occupancy) (fun _ u => u.occupancy = t.occupancy) := by
    rcases sides with ⟨rfl, rfl⟩ | ⟨rfl, rfl⟩
    · exact exchange_holds b fullP fullO
    · exact exchange_holds b fullO fullP
  rw [run, holds_ok] at swapped
  have before : u.occupancy.flag p = some true := by rw [swapped, fullP]
  exact clear_stays before

theorem swapDefault_stays {x y : ObjId} {hasX hasY : Bool} (hereX : s.occupancy.flag x = some hasX)
    (hereY : s.occupancy.flag y = some hasY) (full : s.occupancy.flag p = some true) :
    (swapDefault b x y s).Kept (Stays p) s := by
  by_cases apart : x ≠ p ∧ y ≠ p
  · exact stays_of_spares (swapDefault_spares b apart.1 apart.2)
  · rw [swapDefault_eq b (engaged_holds hereX) (engaged_holds hereY)]
    cases hasX with
    | true =>
      cases hasY with
      | true => exact stays_of_spares (invokeSwap_spares b _ _)
      | false =>
        have other : y ≠ p := fun same => by simp [same, full] at hereY
        obtain rfl : x = p := by tauto
        exact throughDefault_stays b full hereY (.inl ⟨rfl, rfl⟩)
    | false =>
      cases hasY with
      | true =>
        have other : x ≠ p := fun same => by simp [same, full] at hereX
        obtain rfl : y = p := by tauto
        exact throughDefault_stays b full hereX (.inr ⟨rfl, rfl⟩)
      | false =>
        have otherX : x ≠ p := fun same => by simp [same, full] at hereX
        have otherY : y ≠ p := fun same => by simp [same, full] at hereY
        exact (apart ⟨otherX, otherY⟩).elim

theorem unionAssignFromT_stays (E : Element α) {v : Arg} (named : p ≠ .temporary)
    (unused : s.occupancy.flag .temporary = none) (full : s.occupancy.flag p = some true)
    (live : s.occupancy.live v.loc = true) : (unionAssignFromT b E p v s).Kept (Stays p) s := by
  unfold unionAssignFromT
  split
  · refine stays_andThen (newOptional_spares (create_spares b _ _)) fun _ t run => ?_
    have made : (newOptional .temporary (create b .direct .temporary [{ v with cat := v.cat.bound }]) s).Holds _ _ :=
      newInPlace_holds b unused (by simpa using live)
    rw [run, holds_ok] at made
    have fullP : t.occupancy.flag p = some true := by rw [made, Occupancy.set_other _ _ named, full]
    have present : t.occupancy.flag .temporary = some true := by rw [made, Occupancy.set_same]
    exact (kept_bracket (assignFrom_updates b _ _ fullP (engaged_holds present))
      (destroy_spares named.symm)).mono fun _ spared _ => spared
  · cases E.hasValue with
    | none => exact stays_of_spares (assignValue_spares b _ _ v)
    | some hasValue =>
      obtain ⟨has, tested⟩ := innerHasValue_holds (ε := ε) hasValue live
      cases v.cat with
      | lvalue => exact stays_of_spares (assignValue_spares b _ _ v)
      | constLvalue | rvalue => exact assignFrom_stays b _ _ full tested

/-! ### Every operation -/

theorem style_assignFromT_stays (E : Element α) (impl : Impl) {this : ObjId} {v : Arg}
    (named : p ≠ .temporary) (unused : s.occupancy.flag .temporary = none)
    (full : s.occupancy.flag p = some true) (live : s.occupancy.live v.loc = true) :
    ((style b E impl).assignFromT this v s).Kept (Stays p) s := by
  cases impl with
  | aligned _ => exact stays_of_spares (assignValue_spares b _ _ v)
  | union _ =>
    by_cases own : this = p
    · subst own
      exact unionAssignFromT_stays b E named unused full live
    · exact stays_of_spares (unionAssignFromT_spares b E v named.symm own)

theorem style_swap_stays (E : Element α) (impl : Impl) {x y : ObjId} {hasX hasY : Bool}
    (hereX : s.occupancy.flag x = some hasX) (hereY : s.occupancy.flag y = some hasY)
    (full : s.occupancy.flag p = some true) : ((style b E impl).swap x y s).Kept (Stays p) s := by
  cases impl with
  | union _ => exact swap_stays b hereX hereY full
  | aligned useDefault =>
    cases useDefault with
    | false => exact swap_stays b hereX hereY full
    | true => exact swapDefault_stays b hereX hereY full

/-- An operation that does not replace the value of `o` leaves it there, or leaves `o` empty. -/
theorem exec_stays (E : Element α) (impl : Impl) {op : Op} {o : Nat} (quiet : s.Quiet)
    (legal : Legal op s.occupancy) (retains : op.replaces ≠ some o)
    (full : s.occupancy.flag (.named o) = some true) :
    (exec b (style b E impl) op s).Kept (Stays (.named o)) s := by
  obtain ⟨_, objects, sources⟩ := legal
  have spare : ∀ {c : Doc α ε Unit}, Keeps (Spares (.named o)) c → (c s).Kept (Stays (.named o)) s :=
    fun keeps => stays_of_spares keeps
  cases op with
  | defaultCtor _ | noneCtor _ => exact spare appear_spares
  | valueCtor _ src cat => exact spare (newOptional_spares (createFrom_spares b _ _))
  | condCtor _ cond src cat =>
    exact spare (newOptional_spares (keeps_ite (createFrom_spares b _ _) (keeps_pure _)))
  | inPlaceCtor _ args | factoryCtor _ typed args => exact spare (newOptional_spares (create_spares b _ _))
  | inPlaceIfCtor _ cond args =>
    exact spare (newOptional_spares (keeps_ite (create_spares b _ _) (keeps_pure _)))
  | copyCtor _ rhs | moveCtor _ rhs | convCopyCtor _ rhs | convMoveCtor _ rhs =>
    exact spare (newFrom_spares b _ _ engaged_spares)
  | exprCtor _ src cat => exact spare (newOptional_spares (create_spares b _ _))
  | assignNone this | reset this =>
    by_cases own : this = o
    · subst own
      exact clear_stays full
    · exact spare (clear_spares fun same => own (ObjId.named.inj same))
  | assignFromT this src cat | resetValue this src =>
    exact style_assignFromT_stays b E impl nofun quiet.2 full (sources _ (.head _))
  | assignFromU this src cat => exact spare (assignValue_spares b _ _ _)
  | copyAssign this rhs | moveAssign this rhs | convCopyAssign this rhs | convMoveAssign this rhs =>
    by_cases own : this = o
    · subst own
      obtain ⟨has, there⟩ := objects _ (.tail _ (.head _))
      exact assignFrom_stays b _ _ full (engaged_holds there)
    · exact spare (assignFrom_spares b _ _ engaged_spares fun same => own (ObjId.named.inj same))
  | assignFactory this typed args | emplace this args =>
    exact spare (emplace_spares b _ _ fun same => retains (congrArg some (ObjId.named.inj same)))
  | swap x y =>
    obtain ⟨hasX, hereX⟩ := objects _ (.head _)
    obtain ⟨hasY, hereY⟩ := objects _ (.tail _ (.head _))
    exact style_swap_stays b E impl hereX hereY full
  | destroy d =>
    by_cases own : d = o
    · subst own
      exact destroy_stays full
    · exact spare (destroy_spares fun same => own (ObjId.named.inj same))

end Spec

/-! ### Runs -/

section Runs

variable {b} {E : Element α} {impl : Impl} {w w' : World α} {events : List (Op × Option ε)} {o : Nat}

theorem Impl.exec_stays (settled : w.Settled) {op : Op} (legal : op.Legal w) (free : op.SelfFree)
    (retains : op.replaces ≠ some o) (full : w.flag (.named o) = some true) {threw : Option ε}
    (ends : (impl.exec E b op w).Ends threw w') (still : w'.flag (.named o) = some true) :
    Spec.destructions w'.trace (.named o) = Spec.destructions w.trace (.named o) := by
  have rep := consistent_represents settled.consistent
  have quiet := settled.document_quiet
  have allowed := rep.legal legal
  have safe := Spec.exec_quiet b E impl quiet allowed free
  have matched := impl.exec_implements E b op legal.fresh w _ rep
  obtain ⟨t, ends', rep'⟩ := (matched.flip (safe.mono (fun _ _ _ => trivial) fun _ _ _ => trivial)).ends ends
  rw [rep.flag_eq] at full
  rw [rep'.flag_eq] at still
  have stays := (Spec.exec_stays b E impl quiet allowed retains full).ends ends'
  rw [rep'.trace, rep.trace]
  exact stays still

/-- The steps of a run through which the optional `o` is engaged, and its value is not replaced. -/
abbrev Impl.RetainingRun (b : Behaviour α ε) (E : Element α) (impl : Impl) (o : Nat) :
    World α → List (Op × Option ε) → World α → Prop :=
  ((impl.system E b).restrict fun op w =>
    op.SelfFree ∧ op.replaces ≠ some o ∧ w.flag (.named o) = some true).Run

theorem Impl.run_spares (run : impl.RetainingRun b E o w events w') (settled : w.Settled)
    (still : w'.flag (.named o) = some true) :
    Spec.destructions w'.trace (.named o) = Spec.destructions w.trace (.named o) := by
  induction run with
  | nil => rfl
  | @cons w u w' op threw rest legal ends tail ih =>
    obtain ⟨legal, free, retains, full⟩ := legal
    have next : u.Settled := ends.holds (impl.exec_settled b E settled legal free)
    have engaged : u.flag (.named o) = some true := by
      cases tail with
      | nil => exact still
      | cons legal => exact legal.2.2.2
    exact (ih next still).trans (impl.exec_stays settled legal free retains full ends engaged)

/-- A `T` that is not destroyed is not constructed again. -/
theorem lifetime_unbroken {l : Loc} {calls : List (Call × Option ε)} {left : Bool}
    (lives : calls.foldlM (lifetime l) true = some left) (spared : ∀ call ∈ calls, call.1 ≠ .destroy l) :
    ∀ call ∈ calls, ∀ how args, call.1 ≠ .construct how l args := by
  induction calls with
  | nil => exact List.forall_mem_nil _
  | cons call rest ih =>
    obtain ⟨c, threw⟩ := call
    have first := spared _ (.head _)
    have later : ∀ call ∈ rest, call.1 ≠ .destroy l := fun call member => spared call (.tail _ member)
    rw [List.foldlM_cons] at lives
    have step : lifetime l true (c, threw) = stage l true (c, threw) := if_neg (by simp)
    rw [step] at lives
    have kept : stage l true (c, threw) = some true ∧ ∀ how args, c ≠ .construct how l args := by
      cases c with
      | construct how dst args =>
        by_cases here : dst = l
        · simp [stage, here] at lives
        · simp [stage, here]
      | destroy dst =>
        have other : dst ≠ l := fun same => first (congrArg Call.destroy same)
        simp [stage, other]
      | assign | swap => simp [stage]
    rw [kept.1] at lives
    intro call member
    rcases List.mem_cons.mp member with rfl | member
    · exact kept.2
    · exact ih lives later call member

/-- References stay valid. As long as an optional is engaged and its value is not replaced, the `T` in it is
neither destroyed nor constructed again, whatever the program does otherwise and whatever throws. -/
theorem Impl.run_stable (run : impl.RetainingRun b E o w events w') (settled : w.Settled)
    (engaged : w.flag (.named o) = some true) (still : w'.flag (.named o) = some true) :
    ∃ calls, w'.trace = calls ++ w.trace ∧ ∀ c ∈ calls, c ≠ .destroy (.contained (.named o)) ∧
      ∀ how args, c ≠ .construct how (.contained (.named o)) args := by
  have whole : ((Variant.impl impl).system E b).Run w events w' := run.unrestrict
  obtain ⟨acts, elementary, _, within⟩ := Variant.run_path whole
  have own : ∀ act ∈ acts, act.1.onStorage = false := by
    intro act member
    obtain ⟨event, _, permits⟩ := within act member
    exact Bool.eq_false_iff.mpr fun stored => Bool.false_ne_true (permits.storage stored)
  obtain ⟨trace, _, _⟩ := elementary_answers elementary
  have spared := impl.run_spares run settled still
  have none : ∀ call ∈ callsOf acts, call.1 ≠ .destroy (.contained (.named o)) := by
    intro call member same
    have counted : 0 < (((callsOf acts).map Prod.fst).reverse).count (.destroy (.contained (.named o))) :=
      List.count_pos_iff.mpr (List.mem_reverse.mpr (same ▸ List.mem_map_of_mem member))
    rw [trace, Spec.destructions, List.count_append] at spared
    unfold Spec.destructions at spared
    omega
  have live : w.holds (.contained (.named o)) = true := (settled.consistent (.named o)).mpr engaged
  have lives := elementary_lifetime elementary own (l := .contained (.named o)) rfl
  rw [live] at lives
  refine ⟨_, trace, fun c made => ?_⟩
  obtain ⟨call, member, rfl⟩ := List.mem_map.mp (List.mem_reverse.mp made)
  exact ⟨none call member, lifetime_unbroken lives none call member⟩

end Runs

/-- `o0 = o1; swap(o0, o1); o1.reset();` of two optionals with values, where the swap throws. -/
theorem Impl.run_stable_swap :
    ∃ (w w' : World Int) (calls : List Call), (Impl.union false).RetainingRun
        (intLike fun trace _ => if trace.length = 3 then some () else none) (.nontrivial Int) 0 w
        [(.copyAssign 0 1, none), (.swap 0 1, some ()), (.reset 1, none)] w' ∧
      w'.trace = calls ++ w.trace ∧ ∀ c ∈ calls, c ≠ .destroy (.contained (.named 0)) := by
  obtain ⟨w, w', built, full, run, still⟩ : ∃ w w' : World Int, (Impl.union false).SelfFreeRun
        (intLike fun trace _ => if trace.length = 3 then some () else none) (.nontrivial Int)
        (World.initial fun _ => 1)
        [(.valueCtor 0 (.var 0) .lvalue, none), (.valueCtor 1 (.var 0) .lvalue, none)] w ∧
      w.flag (.named 0) = some true ∧ (Impl.union false).RetainingRun
        (intLike fun trace _ => if trace.length = 3 then some () else none) (.nontrivial Int) 0 w
        [(.copyAssign 0 1, none), (.swap 0 1, some ()), (.reset 1, none)] w' ∧
      w'.flag (.named 0) = some true :=
    ⟨_, _, .cons ⟨by decide, by decide⟩ ⟨rfl, rfl⟩ (.cons ⟨by decide, by decide⟩ ⟨rfl, rfl⟩ (.nil _)), rfl,
      .cons ⟨by decide, by decide⟩ ⟨rfl, rfl⟩ (.cons ⟨by decide, by decide⟩ ⟨rfl, rfl⟩
        (.cons ⟨by decide, by decide⟩ ⟨rfl, rfl⟩ (.nil _))), rfl⟩
  have settled := Impl.run_settled _ _ _ built (World.initial_settled _)
  obtain ⟨calls, trace, spared⟩ := Impl.run_stable run settled full still
  exact ⟨w, w', calls, run, trace, fun c made => (spared c made).1⟩

end BoostOptional
