import BoostOptional.Reference.Source

/-!
What the storages do with one value that is passed to them by an expression naming an object that
is not theirs: how the object is passed on to the operations of `T`, and what becomes of it.
-/

namespace BoostOptional

def Call.args : Call → List Arg
  | .construct _ _ args => args
  | .assign _ src => [src]
  | .swap _ _ | .destroy _ => []

namespace Reference
open Effect Prog Memory

variable {α ε : Type}

/-- The categories in which `l` has been passed to the operations of `T`, latest first. -/
def passed (w : World α) (l : Loc) : List Cat :=
  w.trace.flatMap fun c => (c.args.filter fun v => v.loc = l).map Arg.cat

def converted (convert : α → α) (ty : ArgTy) (x : α) : α := if ty = .self then x else convert x

/-- Copies and moves keep the value, conversions from a `U` apply `convert`, and a source that is an
lvalue is not modified, also by a call that throws. An rvalue may be. -/
structure Converts (b : Behaviour α ε) (convert : α → α) : Prop where
  construct : ∀ trace values how dst v x, values v.loc = some x →
    (b trace (.construct how dst [v]) values).threw = none →
    (b trace (.construct how dst [v]) values).result = converted convert v.ty x
  construct_keeps : ∀ trace values how dst v x, values v.loc = some x → v.cat ≠ .rvalue →
    (b trace (.construct how dst [v]) values).after v.loc = x
  assign : ∀ trace values dst v x, (v.loc = dst → v.ty = .self) → values v.loc = some x →
    (b trace (.assign dst v) values).threw = none →
    (b trace (.assign dst v) values).after dst = converted convert v.ty x
  assign_keeps : ∀ trace values dst v x, (v.loc = dst → v.ty = .self) → values v.loc = some x →
    v.cat ≠ .rvalue →
    (b trace (.assign dst v) values).after v.loc = x

/-- `l` is passed on in the categories `cats`, and unless as an rvalue it keeps its value. -/
structure Touched (l : Loc) (cats : List Cat) (w t : World α) : Prop where
  passed : passed t l = cats ++ passed w l
  referee : .rvalue ∉ cats → t.value l = w.value l

structure Written (l : Loc) (o : ObjId) (cats : List Cat) (y : α) (init : Option Bool)
    (w t : World α) : Prop extends
    Touched l cats w t where
  value : t.value (.contained o) = some y
  flag : t.flag o = init
  scratch : (t.value .scratch).isSome = (w.value .scratch).isSome

structure Failed (l : Loc) (cats : List Cat) (w t : World α) : Prop extends
    Touched l cats w t where
  flag : t.flag = w.flag
  scratch : (t.value .scratch).isSome = (w.value .scratch).isSome

section Steps

variable {w t u : World α} {l : Loc} {cats cats' : List Cat} {o : ObjId} {y : α}

theorem Touched.trans (first : Touched l cats w t) (second : Touched l cats' t u) :
    Touched l (cats' ++ cats) w u where
  passed := by rw [second.passed, first.passed, List.append_assoc]
  referee kept := by
    rw [List.mem_append, not_or] at kept
    rw [second.referee kept.1, first.referee kept.2]

theorem passed_log (w : World α) (c : Call) (l : Loc) :
    passed (log w c) l = (c.args.filter fun v => v.loc = l).map Arg.cat ++ passed w l := rfl

theorem place_passed (w : World α) (dst l : Loc) (v : α) : passed (place w dst v) l = passed w l := by
  cases dst <;> rfl

theorem place_flag (w : World α) (dst : Loc) (v : α) : (place w dst v).flag = w.flag := by
  cases dst <;> rfl

def argCats (l : Loc) (v : Arg) : List Cat := if v.loc = l then [v.cat] else []

theorem argCats_eq (l : Loc) (v : Arg) : ([v].filter fun v => v.loc = l).map Arg.cat = argCats l v := by
  unfold argCats
  by_cases same : v.loc = l <;> simp [same]

variable {b : Behaviour α ε} {convert : α → α} (converts : Converts b convert)

include converts in
theorem constructed_touched (how : Init) (dst : Loc) {v : Arg} {x : α} (held : w.value v.loc = some x) :
    Touched l (argCats l v) w (log (update w [v.loc] (b w.trace (.construct how dst [v]) w.value).after)
      (.construct how dst [v])) where
  passed := (passed_log _ _ l).trans (by rw [Call.args, argCats_eq]; rfl)
  referee kept := by
    rw [World.called_value]
    by_cases source : v.loc = l
    · subst source
      rw [if_pos (by simp), held, converts.construct_keeps _ _ _ _ _ _ held]
      rintro rvalue
      simp [argCats, rvalue] at kept
    · exact if_neg (by simpa using Ne.symm source)

include converts in
theorem constructT_touches (how : Init) {dst : Loc} {v : Arg} {x : α} (empty : w.value dst = none)
    (held : w.value v.loc = some x) (live : (w.value l).isSome = true) :
    (constructT b how dst [v] w).Holds
      (fun _ t => Touched l (argCats l v) w t ∧ t.value dst = some (converted convert v.ty x) ∧
        t.flag = w.flag ∧
        ∀ p, p ≠ dst → (t.value p).isSome = (w.value p).isSome)
      (fun _ t => Touched l (argCats l v) w t ∧ t.flag = w.flag ∧
        ∀ p, (t.value p).isSome = (w.value p).isSome) := by
  have apart : dst ≠ v.loc := by
    rintro rfl
    rw [held] at empty
    cases empty
  have touched := constructed_touched (l := l) converts how dst held
  have occupied : ∀ p, ((log (update w [v.loc] (b w.trace (.construct how dst [v]) w.value).after)
      (.construct how dst [v])).value p).isSome = (w.value p).isSome := by
    intro p
    rw [World.called_value]
    by_cases source : p = v.loc
    · rw [if_pos (by simp [source]), source, held]
      rfl
    · rw [if_neg (by simpa using source)]
  have operands : ([v].map Arg.loc).all (fun l => (value w l).isSome) = true := by
    simp [show value w v.loc = some x from held]
  cases threw : (b w.trace (.construct how dst [v]) w.value).threw with
  | some e =>
    rw [constructT_throws empty operands threw]
    exact ⟨touched, rfl, occupied⟩
  | none =>
    rw [constructT_returns empty operands threw]
    refine ⟨⟨(place_passed _ _ _ _).trans touched.passed, fun kept => ?_⟩, ?_, place_flag _ _ _,
      fun p other => ?_⟩
    · have notNew : l ≠ dst := by
        rintro rfl
        rw [empty] at live
        cases live
      rw [World.place_value, if_neg notNew]
      exact touched.referee kept
    · rw [World.place_value, if_pos rfl]
      exact congrArg some (converts.construct _ _ _ _ _ _ held threw)
    · rw [World.place_value, if_neg other]
      exact occupied p

include converts in
theorem assigned_touched {dst : Loc} {v : Arg} {x : α} (held : w.value v.loc = some x)
    (own : v.loc = dst → v.ty = .self) (apart : l = dst → v.loc = l) :
    Touched l (argCats l v) w (log (update w [dst, v.loc] (b w.trace (.assign dst v) w.value).after)
        (.assign dst v)) where
  passed := (passed_log _ _ l).trans (by rw [Call.args, argCats_eq]; rfl)
  referee kept := by
    rw [World.called_value]
    by_cases source : v.loc = l
    · subst source
      rw [if_pos (by simp), held, converts.assign_keeps _ _ _ _ _ own held]
      rintro rvalue
      simp [argCats, rvalue] at kept
    · have notTarget : l ≠ dst := fun same => source (apart same)
      exact if_neg (by simp [notTarget, Ne.symm source])

include converts in
theorem assignment_touches {v : Arg} {x : α} (held : w.value v.loc = some x)
    (own : v.loc = .contained o → v.ty = .self)
    (apart : l = .contained o → v.loc = l) :
    (assignment b (.contained o) v w).Holds
      (fun _ t => Touched l (argCats l v) w t ∧
        t.value (.contained o) = some (converted convert v.ty x) ∧
        t.flag = w.flag ∧ (t.value .scratch).isSome = (w.value .scratch).isSome)
      (fun _ t => Failed l (argCats l v) w t) := by
  have touched := assigned_touched (l := l) converts held own apart
  have scratch : ((log
      (update w [.contained o, v.loc] (b w.trace (.assign (.contained o) v) w.value).after)
      (.assign (.contained o) v)).value .scratch).isSome = (w.value .scratch).isSome := by
    rw [World.called_value]
    by_cases source : Loc.scratch = v.loc
    · rw [if_pos (by simp [source]), source, held]
      rfl
    · rw [if_neg (by simp [source])]
  cases threw : (b w.trace (.assign (.contained o) v) w.value).threw with
  | some e =>
    simp only [assignment, settle, threw]
    exact ⟨touched, rfl, scratch⟩
  | none =>
    simp only [assignment, settle, threw]
    refine ⟨touched, ?_, rfl, scratch⟩
    rw [World.called_value, if_pos (by simp)]
    exact congrArg some (converts.assign _ _ _ _ _ own held threw)

theorem setInit_written {init : Bool} (touched : Touched l cats w t)
    (value : t.value (.contained o) = some y)
    (full : init = true) (scratch : (t.value .scratch).isSome = (w.value .scratch).isSome) :
    Written l o cats y (some true) w (t.setFlag o (some init)) where
  passed := touched.passed
  referee := touched.referee
  value := value
  flag := (if_pos rfl).trans (congrArg some full)
  scratch := scratch

include converts in
theorem build_writes (how : Init) {v : Arg} {x : α} (empty : w.value (.contained o) = none)
    (held : w.value v.loc = some x) (live : (w.value l).isSome = true) :
    ((do constructT b how (.contained o) [v]; setInit o true : Code α ε Unit) w).Holds
      (fun _ t => Written l o (argCats l v) (converted convert v.ty x) (some true) w t)
      (fun _ t => Failed l (argCats l v) w t) := by
  refine holds_andThen ((constructT_touches converts how empty held live).mono (fun _ _ done => done)
    fun _ _ failed => ⟨failed.1, failed.2.1, failed.2.2 _⟩) ?_
  rintro _ t ⟨touched, value, _, others⟩
  exact setInit_written touched value rfl (others _ nofun)

theorem destroyScratch_touched (notScratch : l ≠ .scratch) :
    Touched l [] w (log (vacate w .scratch) (.destroy .scratch)) where
  passed := rfl
  referee _ := by cases l with
    | scratch => exact (notScratch rfl).elim
    | contained o => rfl
    | var x => rfl

theorem destroyScratch_holds (notScratch : l ≠ .scratch) (live : (w.value .scratch).isSome = true)
    {E : ε → World α → Prop} : ((destroyT .scratch : Code α ε Unit) w).Holds
      (fun _ t => Touched l [] w t ∧ t.value .scratch = none ∧ t.flag = w.flag ∧
        ∀ p, p ≠ .scratch → t.value p = w.value p) E := by
  rw [destroyT_live live]
  refine ⟨destroyScratch_touched notScratch, rfl, rfl, fun p other => ?_⟩
  exact (destroyScratch_touched (l := p) other).referee (List.not_mem_nil)

def Body (body : Arg → Code α ε Unit) (κ : Cat → Cat) (l : Loc) (o : ObjId) (init : Option Bool)
    (u : Arg)
    (w : World α) : Prop :=
  ∀ y, w.value u.loc = some y →
    (body u w).Holds (fun _ t => Written l o (argCats l { u with cat := κ u.cat }) y init w t)
      (fun _ t => Failed l (argCats l { u with cat := κ u.cat }) w t)

include converts in
theorem bindParam_writes {v : Arg} {x : α} {body : Arg → Code α ε Unit} {init : Option Bool}
    (κ : Cat → Cat)
    (quiet : w.value .scratch = none) (here : v.loc = l) (held : w.value l = some x)
    (own : v.ty = .self → Body body κ l o init { v with cat := v.cat.bound } w)
    (temporary : v.ty ≠ .self → ∀ t : World α,
      (∀ p, p ≠ .scratch → (t.value p).isSome = (w.value p).isSome) →
      t.flag = w.flag → Body body κ l o init ⟨.scratch, .rvalue, .self⟩ t) :
    (bindParam b v body w).Holds
      (fun _ t =>
        Written l o [if v.ty = .self then κ v.cat.bound else v.cat] (converted convert v.ty x) init w t)
      (fun _ t => Failed l [if v.ty = .self then κ v.cat.bound else v.cat] w t) := by
  -- An object of another type reaches the parameter through a temporary `T`, which is moved.
  subst here
  have notScratch : v.loc ≠ .scratch := fun same => by
    rw [same, quiet] at held
    cases held
  by_cases self : v.ty = .self
  · have runs := own self x held
    simp only [argCats, if_true] at runs
    rwa [bindParam_self b self, if_pos self, converted, if_pos self]
  · have alone : argCats v.loc v = [v.cat] := if_pos rfl
    have apart : argCats v.loc { (⟨.scratch, .rvalue, .self⟩ : Arg) with cat := κ .rvalue } = [] :=
      if_neg notScratch.symm
    rw [bindParam_other b self, if_neg self]
    refine holds_andThen ((constructT_touches (l := v.loc) converts .implicit quiet held
      (by rw [held]; rfl)).mono
      (fun _ _ done => done) fun _ _ failed => ?_) ?_
    · rw [alone] at failed
      exact ⟨failed.1, failed.2.1, failed.2.2 _⟩
    · rintro _ t ⟨touched, value, flag, others⟩
      rw [alone] at touched
      have runs := temporary self t others flag _ value
      simp only [apart] at runs
      have live : ∀ {u : World α}, (u.value .scratch).isSome = (t.value .scratch).isSome →
          (u.value .scratch).isSome = true := fun same => by rw [same, value]; rfl
      refine holds_bracket runs (fun e u failed => ?_) (fun _ u written => ?_)
      · refine (destroyScratch_holds notScratch (live failed.scratch)).mono ?_
          (fun _ _ thrown => thrown)
        rintro _ last ⟨ended, empty, flags, _⟩
        exact ⟨touched.trans (failed.toTouched.trans ended), by rw [flags, failed.flag, flag],
          by rw [empty, quiet]⟩
      · refine (destroyScratch_holds notScratch (live written.scratch)).mono ?_
          (fun _ _ thrown => thrown)
        rintro _ last ⟨ended, empty, flags, values⟩
        exact ⟨touched.trans (written.toTouched.trans ended),
          by rw [values (.contained o) nofun, written.value], by rw [flags, written.flag],
          by rw [empty, quiet]⟩

/-! ### The functions of the bases -/

theorem converted_self {ty : ArgTy} (self : ty = .self) (x : α) : converted convert ty x = x :=
  if_pos self

include converts in
theorem constructBody {u : Arg} (empty : w.value (.contained o) = none)
    (live : (w.value l).isSome = true)
    (self : u.ty = .self) :
    Body (fun v => do constructT b .direct (.contained o) [v]; setInit o true) id l o (some true) u w := by
  intro y held
  have built := build_writes converts .direct empty held live
  rwa [converted_self self] at built

include converts in
theorem assignBody {u : Arg} {init : Option Bool} (flag : w.flag o = init)
    (live : (w.value (.contained o)).isSome = true)
    (apart : l = .contained o → u.loc = l) (self : u.ty = .self) :
    Body (assignT b (.contained o)) id l o init u w := by
  intro y held
  rw [assignT_eq_assignment live (by rw [held]; rfl)]
  refine (assignment_touches converts held (fun _ => self) apart).mono ?_ (fun _ _ failed => failed)
  rintro _ t ⟨touched, value, flags, scratch⟩
  exact ⟨touched, value.trans (congrArg some (converted_self self y)), by rw [flags, flag], scratch⟩

include converts in
theorem storageBody {u : Arg} (apart : l = .contained o → u.loc = l) (self : u.ty = .self) :
    Body (fun v => do Direct.assignStorage b o { v with cat := .constLvalue }; setInit o true) (fun _ => .constLvalue)
      l o (some true) u w := by
  intro y held
  refine holds_andThen (Q := fun _ t => Touched l (argCats l { u with cat := .constLvalue }) w t ∧
    t.value (.contained o) = some (converted convert u.ty y) ∧ t.flag = w.flag ∧
    (t.value .scratch).isSome = (w.value .scratch).isSome) ?_ ?_
  · have stored := Direct.assignStorage_eq_assignment (b := b) (w := w) (o := o) (v := { u with cat := .constLvalue })
      (by rw [held]; rfl)
    rw [stored]
    exact assignment_touches converts (v := { u with cat := .constLvalue }) held (fun _ => self) apart
  · rintro _ t ⟨touched, value, _, scratch⟩
    rw [converted_self self] at value
    exact setInit_written touched value rfl scratch

section Passed

variable {v : Arg} {x : α} (quiet : w.value .scratch = none) (here : v.loc = l)
    (held : w.value l = some x)

include converts quiet here held

theorem aligned_construct_writes (empty : w.value (.contained o) = none) :
    (Aligned.construct b o v w).Holds
      (fun _ t =>
        Written l o [if v.ty = .self then v.cat.bound else v.cat] (converted convert v.ty x)
          (some true) w t)
      (fun _ t => Failed l [if v.ty = .self then v.cat.bound else v.cat] w t) := by
  have live : (w.value l).isSome = true := by rw [held]; rfl
  have notScratch : l ≠ .scratch := by
    rintro rfl
    rw [quiet] at held
    cases held
  refine bindParam_writes converts id quiet here held
    (fun self => constructBody converts empty live self)
    fun _ t others _ => constructBody converts ?_ ?_ rfl
  · rw [← Option.not_isSome_iff_eq_none, others (.contained o) nofun, empty]
    simp
  · rw [others _ notScratch, live]

theorem aligned_assignValue_writes (flag : w.flag o = some true)
    (live : (w.value (.contained o)).isSome = true)
    (own : l = .contained o → v.ty = .self) :
    (Aligned.assignValue b o v w).Holds
      (fun _ t =>
        Written l o [if v.ty = .self then v.cat.bound else v.cat] (converted convert v.ty x)
          (some true) w t)
      (fun _ t => Failed l [if v.ty = .self then v.cat.bound else v.cat] w t) := by
  refine bindParam_writes converts id quiet here held
    (fun self => assignBody converts flag live (fun _ => here) self)
    fun other t others flags => assignBody converts ?_ ?_ (fun same => (other (own same)).elim) rfl
  · rw [flags, flag]
  · rw [others (.contained o) nofun, live]

theorem direct_construct_writes (own : l = .contained o → v.ty = .self) :
    (Direct.construct b o v w).Holds
      (fun _ t =>
        Written l o [if v.ty = .self then .constLvalue else v.cat] (converted convert v.ty x)
          (some true) w t)
      (fun _ t => Failed l [if v.ty = .self then .constLvalue else v.cat] w t) :=
  bindParam_writes converts (fun _ => .constLvalue) quiet here held
    (fun self => storageBody converts (fun _ => here) self)
    fun other _ _ _ => storageBody converts (fun same => (other (own same)).elim) rfl

theorem direct_assignValue_writes (E : Element α) (own : l = .contained o → v.ty = .self) :
    (Direct.assignValue E b o v w).Holds
      (fun _ t => Written l o [v.cat] (converted convert v.ty x) (w.flag o) w t)
      (fun _ t => Failed l [v.cat] w t) := by
  have live : (w.value v.loc).isSome = true := by rw [here, held]; rfl
  have stored : ∀ u t, t.flag = w.flag → (l = .contained o → u.loc = l) →
    (u.loc = .contained o → u.ty = .self) →
      ∀ y, t.value u.loc = some y → (assignment b (.contained o) u t).Holds
        (fun _ t' => Written l o (argCats l u) (converted convert u.ty y) (w.flag o) t t')
        (fun _ t' => Failed l (argCats l u) t t') := by
    intro u t flags apart self y value
    refine (assignment_touches converts value self apart).mono ?_ (fun _ _ failed => failed)
    rintro _ t' ⟨touched, value, flags', scratch⟩
    exact ⟨touched, value, by rw [flags', flags], scratch⟩
  unfold Direct.assignValue
  split
  · rename_i other
    have through : Direct.assignPrvalue b o .implicit [v] = bindParam b v (Direct.assignStorage b o) :=
      (bindParam_other b other.1 _).symm
    have runs : (bindParam b v (Direct.assignStorage b o) w).Holds
        (fun _ t =>
          Written l o [if v.ty = .self then v.cat.bound else v.cat] (converted convert v.ty x)
            (w.flag o) w t)
        (fun _ t => Failed l [if v.ty = .self then v.cat.bound else v.cat] w t) := by
      refine bindParam_writes converts id quiet here held (fun self => (other.1 self).elim) ?_
      intro _ t _ flags y value
      rw [Direct.assignStorage_eq_assignment (by rw [value]; rfl)]
      exact stored _ t flags (fun same => (other.1 (own same)).elim) (fun same => by cases same) y value
    rwa [if_neg other.1, ← through] at runs
  · rw [Direct.assignStorage_eq_assignment live]
    have runs :=
      stored v w rfl (fun _ => here) (fun same => own (here.symm.trans same)) x (by rw [here, held])
    rwa [argCats, if_pos here] at runs

end Passed

end Steps

end Reference

end BoostOptional
