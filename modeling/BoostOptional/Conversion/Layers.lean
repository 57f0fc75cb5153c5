import BoostOptional.Conversion.Lawful

/-!
What a layer of an optional is made from. The constructor and the assignment operator that are selected
take the source as it is or the value in it. What they take is the source of the next layer.
-/

namespace BoostOptional.Conversion
open Overload

variable {β : Type}

structure Source (β : Type) where
  type : Ty
  cat : Cat
  value : Val β
  deriving DecidableEq, Repr

/-- `*s`, of a source that is an optional with a value. -/
def Source.inner (s : Source β) (cat : Cat) : Option (Source β) :=
  match s.type, s.value with
  | .opt U, .full u => some ⟨U, cat, u⟩
  | _, _ => none

/-- The value in an optional. -/
def Val.content : Val β → Option (Val β)
  | .full v => some v
  | _ => none

section Steps

variable (T : Ty) (ops : TypeOps β) (s : Source β)

/-- What the `T` in `optional<T> p(s)` is made from. Without one, `p` is empty. -/
def constructedFrom : Option (Source β) :=
  if s.type = T then some s
  else
    match s.type with
    | .prim _ => some s
    | .opt U =>
      if U = T then s.inner s.cat.bound
      else if s.cat = .rvalue ∧ ops.constructible U .rvalue = true then s.inner .rvalue
      else if ops.constructible U .constLvalue = true then s.inner .constLvalue
      else some s

/-- What the `T` in `o` is made from by `o = s`. Without one, `o` is emptied. -/
def assignedFrom : Option (Source β) :=
  match s.type with
  | .prim _ => some s
  | .opt U =>
    if U = T then s.inner s.cat.bound
    else if s.cat = .rvalue then s.inner .rvalue
    else if s.cat = .lvalue ∧ ops.constructible s.type .lvalue = true ∧ ops.assignable s.type .lvalue = true then some s
    else s.inner .constLvalue

/-- What the `T` of an optional is made from, in a new one or in an `o` there is. -/
def takenFrom (o : Option (Val β)) : Option (Source β) :=
  match o with
  | none => constructedFrom T ops s
  | some _ => assignedFrom T ops s

/-- `u` is a `T` that a constructor or an implicit conversion makes from `s`. -/
def Made (u : Val β) : Prop :=
  if s.type = T then ∃ c, ops.construct T c s.value = some u
  else ops.construct s.type s.cat s.value = some u ∨
    (ops.standard s.type = true ∨ ops.convertible s.type s.cat = true) ∧ ops.convert s.type s.cat s.value = some u

/-- `u` is what is left of the `T` with the value `t` when it is assigned from `s`, or a new `T` in its
place when there is none. A type that is no optional may be converted on the way. -/
def Stored (o : Option (Val β)) (u : Val β) : Prop :=
  match o with
  | none => Made T ops s u
  | some t => (s.type ≠ T → ops.constructible s.type s.cat = true) ∧ ops.assign s.type s.cat t s.value = some u ∨
    (∃ k, T = .prim k) ∧ Made T ops s u

end Steps

section Made

variable {T X : Ty} {ops : TypeOps β} {c cat : Cat} {x u : Val β}

theorem made_own (copied : ops.construct T cat x = some u) : Made T ops ⟨T, c, x⟩ u := by
  rw [Made, if_pos rfl]
  exact ⟨cat, copied⟩

theorem made_construct (built : ops.construct X c x = some u) : Made T ops ⟨X, c, x⟩ u := by
  unfold Made
  split
  · rename_i own
    obtain rfl : X = T := own
    exact ⟨c, built⟩
  · exact .inl built

theorem made_convert (other : X ≠ T) (able : ops.standard X = true ∨ ops.convertible X c = true)
    (through : ops.convert X c x = some u) : Made T ops ⟨X, c, x⟩ u := by
  rw [Made, if_neg other]
  exact .inr ⟨able, through⟩

end Made

/-! ### Construction -/

section Construction

variable {T U X : Ty} {ops : TypeOps β} {c cat cat' : Cat} {x v : Val β}

/-- The constructors from an optional, as a step to the value in it. -/
theorem constructFrom_step (makes : ∀ u u', ops.construct U cat u = some u' → Made T ops ⟨U, cat', u⟩ u')
    (built : constructFrom ops U cat x = some v) :
    (⟨.opt U, c, x⟩ : Source β).inner cat' = none ∧ v = .empty ∨
      ∃ a u, (⟨.opt U, c, x⟩ : Source β).inner cat' = some a ∧ v = .full u ∧ Made T ops a u := by
  cases x with
  | base b => cases built
  | empty => exact .inl ⟨rfl, (Option.some.inj built).symm⟩
  | full w =>
    obtain ⟨u, inner, rfl⟩ := map_full_eq built
    exact .inr ⟨_, u, rfl, rfl, makes _ _ inner⟩

/-- A copy of an optional is one of its value, in whatever category that is passed on. -/
theorem copy_step (cat : Cat) (built : construct T ops (.opt T) c x = some v) :
    constructedFrom T ops ⟨.opt T, cat, x⟩ = none ∧ v = .empty ∨
      ∃ a u, constructedFrom T ops ⟨.opt T, cat, x⟩ = some a ∧ v = .full u ∧ Made T ops a u := by
  have start : constructedFrom T ops ⟨.opt T, cat, x⟩ = (⟨.opt T, cat, x⟩ : Source β).inner cat.bound := by
    simp [constructedFrom]
  rw [start]
  rw [construct_eq (resolve_ctors_same T ops c)] at built
  split at built <;> simp only [runCtor, asOptional, if_true, Option.bind_some] at built <;>
    exact constructFrom_step (fun _ _ copied => made_own copied) built

variable (lawful : Lawful T ops)

include lawful

theorem construct_step (built : construct T ops X c x = some v) :
    constructedFrom T ops ⟨X, c, x⟩ = none ∧ v = .empty ∨
      ∃ a u, constructedFrom T ops ⟨X, c, x⟩ = some a ∧ v = .full u ∧ Made T ops a u := by
  by_cases own : X = T
  · subst own
    obtain ⟨cat, u, copied, rfl⟩ := construct_own_copies built
    exact .inr ⟨⟨X, c, x⟩, u, by simp [constructedFrom], rfl, made_own copied⟩
  by_cases same : X = .opt T
  · subst same
    exact copy_step c built
  obtain ⟨f, chosen, ran⟩ := Option.bind_eq_some_iff.mp built
  cases X with
  | prim k =>
    have selected := resolve_ctors_flat ops c own
    rw [chosen] at selected
    refine .inr ?_
    split at selected
    · obtain rfl := Option.some.inj selected
      obtain ⟨u, direct, rfl⟩ := map_full_eq ran
      exact ⟨_, u, by simp [constructedFrom], rfl, made_construct direct⟩
    · split at selected
      · rename_i able
        obtain rfl := Option.some.inj selected
        obtain ⟨u, through, rfl⟩ := converted_full lawful own ran
        exact ⟨_, u, by simp [constructedFrom], rfl, made_convert own able through⟩
      · cases selected
  | opt U =>
    have notSame : U ≠ T := fun inner => same (congrArg Ty.opt inner)
    have selected := resolve_ctors_other ops c own notSame (lawful.flat U)
    rw [chosen] at selected
    unfold constructedFrom
    simp only [own, notSame, if_false]
    split at selected
    · rename_i moves
      obtain rfl := Option.some.inj selected
      rw [if_pos moves]
      exact constructFrom_step (fun _ _ inner => made_construct inner) ran
    · rename_i stays
      rw [if_neg stays]
      split at selected
      · rename_i copies
        obtain rfl := Option.some.inj selected
        rw [if_pos copies]
        exact constructFrom_step (fun _ _ inner => made_construct inner) ran
      · rename_i whole
        rw [if_neg whole]
        split at selected
        · rename_i able
          obtain rfl := Option.some.inj selected
          obtain ⟨u, through, rfl⟩ := converted_full lawful own ran
          exact .inr ⟨_, u, rfl, rfl, made_convert own (.inr able) through⟩
        · cases selected

theorem convert_step (notSame : X ≠ .opt T) (able : convertible T ops X c = true)
    (through : convert T ops X c x = some v) :
    ∃ u, constructedFrom T ops ⟨X, c, x⟩ = some ⟨X, c, x⟩ ∧ v = .full u ∧ Made T ops ⟨X, c, x⟩ u := by
  by_cases own : X = T
  · subst own
    simp only [convert, asValue, if_true, Option.bind_some] at through
    obtain ⟨u, copied, rfl⟩ := map_full_eq through
    exact ⟨u, by simp [constructedFrom], rfl, made_own copied⟩
  · obtain ⟨k, rfl, standard⟩ := convertible_prim c lawful notSame own able
    obtain ⟨u, converted, rfl⟩ := converted_full lawful own through
    exact ⟨u, by simp [constructedFrom, own], rfl, made_convert own (.inl standard) converted⟩

/-- What an optional is made from is made from it layer by layer. -/
theorem made_step {s : Source β} (made : Made (.opt T) (optional T ops) s v) :
    constructedFrom T ops s = none ∧ v = .empty ∨
      ∃ a u, constructedFrom T ops s = some a ∧ v = .full u ∧ Made T ops a u := by
  obtain ⟨X, c, x⟩ := s
  unfold Made at made
  split at made
  · rename_i same
    obtain rfl : X = .opt T := same
    obtain ⟨cat, built⟩ := made
    exact copy_step c built
  · rename_i notSame
    rcases made with built | ⟨able, through⟩
    · exact construct_step lawful built
    · obtain ⟨u, start, rfl, made⟩ := convert_step lawful notSame (able.resolve_left Bool.false_ne_true) through
      exact .inr ⟨_, u, start, rfl, made⟩

end Construction

/-! ### Assignment -/

section Assignment

variable {T U X : Ty} {c cat : Cat} {o x v : Val β}

theorem assignFrom_step {ops : TypeOps β} (assigned : assignFrom ops U cat o x = some v) :
    (⟨.opt U, c, x⟩ : Source β).inner cat = none ∧ v = .empty ∨
      ∃ a u, (⟨.opt U, c, x⟩ : Source β).inner cat = some a ∧ v = .full u ∧ Stored T ops a o.content u := by
  unfold assignFrom at assigned
  split at assigned
  · rename_i compiles
    cases o <;> cases x <;> simp only [reduceCtorEq] at assigned
    · exact .inl ⟨rfl, (Option.some.inj assigned).symm⟩
    · obtain ⟨u, built, rfl⟩ := map_full_eq assigned
      exact .inr ⟨_, u, rfl, rfl, made_construct built⟩
    · exact .inl ⟨rfl, (Option.some.inj assigned).symm⟩
    · obtain ⟨u, stored, rfl⟩ := map_full_eq assigned
      exact .inr ⟨_, u, rfl, rfl, .inl ⟨fun _ => compiles.1, stored⟩⟩
  · cases assigned

theorem assignForward_step {ops : TypeOps β} (compiles : ops.constructible X c = true)
    (assigned : assignForward ops X c o x = some v) :
    ∃ u, v = .full u ∧ Stored T ops ⟨X, c, x⟩ o.content u := by
  cases o with
  | base b => cases assigned
  | empty =>
    obtain ⟨u, built, rfl⟩ := map_full_eq assigned
    exact ⟨u, rfl, made_construct built⟩
  | full t =>
    obtain ⟨u, stored, rfl⟩ := map_full_eq assigned
    exact ⟨u, rfl, .inl ⟨fun _ => compiles, stored⟩⟩

variable {prims : Nat → TypeOps β} (consistent : ∀ k, Consistent (.prim k) (prims k))

include consistent

/-- A source of a type that is no optional, converted to an optional that is moved from. -/
theorem convertMove_step {k j : Nat} {w : Val β} (made : Made (.prim j) (prims j) ⟨.prim k, c, x⟩ w)
    (assigned : assignFrom (prims j) (.prim j) .rvalue o (.full w) = some v) :
    ∃ u, v = .full u ∧ Stored (.prim j) (prims j) ⟨.prim k, c, x⟩ o.content u := by
  obtain rfl := assignFrom_overwrites (consistent j).toLawful (consistent j).overwrites assigned
  refine ⟨w, rfl, ?_⟩
  cases o with
  | base b | empty => exact made
  | full t => exact .inr ⟨⟨j, rfl⟩, made⟩

theorem assign_step_prim {k : Nat} (assigned : assign T (typeOps prims T) (.prim k) c o x = some v) :
    ∃ u, v = .full u ∧ Stored T (typeOps prims T) ⟨.prim k, c, x⟩ o.content u := by
  have lawful := typeOps_lawful (fun k => (consistent k).toLawful) T
  obtain ⟨f, chosen, ran⟩ := Option.bind_eq_some_iff.mp assigned
  by_cases own : Ty.prim k = T
  · subst own
    rw [show typeOps prims (.prim k) = prims k from rfl] at *
    rw [resolve_assignments_prim] at chosen
    obtain rfl := Option.some.inj chosen
    split at ran
    · rename_i takes
      exact assignForward_step takes.2.1 ran
    · simp only [runAssignment, asOptional, Ty.ne_opt, if_false] at ran
      obtain ⟨q, converted, moved⟩ := Option.bind_eq_some_iff.mp ran
      have able : convertible (.prim k) (prims k) (.prim k) c = true := by simp [convertible]
      obtain ⟨w, _, rfl, made⟩ := convert_step lawful (Ty.ne_opt _) able converted
      exact convertMove_step consistent made moved
  · rw [resolve_assignments_flat _ _ own] at chosen
    split at chosen
    · rename_i takes
      obtain rfl := Option.some.inj chosen
      exact assignForward_step takes.1 ran
    · split at chosen
      · rename_i standard
        obtain rfl := Option.some.inj chosen
        obtain ⟨q, through, moved⟩ := Option.bind_eq_some_iff.mp ran
        have notSame : Ty.prim k ≠ .opt T := fun same => by cases same
        rw [asOptional, if_neg notSame] at through
        have able : convertible T (typeOps prims T) (.prim k) c = true := by simp [convertible, standard]
        obtain ⟨w, _, rfl, made⟩ := convert_step lawful notSame able through
        cases T with
        | prim j => exact convertMove_step consistent made moved
        | opt S => cases standard
      · cases chosen

theorem resolve_assignments_optional (notSame : U ≠ T) :
    resolve (assignments T (typeOps prims T) (.opt U) c) =
      some (if c = .rvalue then .convMove
        else if c = .lvalue ∧ (typeOps prims T).constructible (.opt U) .lvalue = true ∧
          (typeOps prims T).assignable (.opt U) .lvalue = true then .forward
        else .convCopy) := by
  by_cases own : Ty.opt U = T
  · subst own
    rw [resolve_assignments_own U _ c]
    simp [show (typeOps prims (.opt U)).isScalar = false from rfl]
  · exact resolve_assignments_other _ c own notSame ((typeOps_lawful (fun k => (consistent k).toLawful) T).flat U)

theorem assign_step (assigned : assign T (typeOps prims T) X c o x = some v) :
    assignedFrom T (typeOps prims T) ⟨X, c, x⟩ = none ∧ v = .empty ∨
      ∃ a u, assignedFrom T (typeOps prims T) ⟨X, c, x⟩ = some a ∧ v = .full u ∧
        Stored T (typeOps prims T) a o.content u := by
  cases X with
  | prim k =>
    obtain ⟨u, rfl, stored⟩ := assign_step_prim consistent assigned
    exact .inr ⟨_, u, rfl, rfl, stored⟩
  | opt U =>
    unfold assignedFrom
    dsimp only
    by_cases same : U = T
    · subst same
      rw [assign_eq (resolve_assignments_same U _ c)] at assigned
      rw [if_pos rfl]
      cases c <;> simp only [reduceCtorEq, if_false, if_true, runAssignment, asOptional, Option.bind_some] at assigned <;>
        exact assignFrom_step assigned
    · rw [assign_eq (resolve_assignments_optional consistent same)] at assigned
      rw [if_neg same]
      split at assigned
      · rename_i rvalue
        rw [if_pos rvalue]
        exact assignFrom_step assigned
      · rename_i notRvalue
        rw [if_neg notRvalue]
        split at assigned
        · rename_i whole
          obtain ⟨rfl, constructible, assignable⟩ := whole
          rw [if_pos ⟨rfl, constructible, assignable⟩]
          obtain ⟨u, rfl, stored⟩ := assignForward_step constructible assigned
          exact .inr ⟨_, u, rfl, rfl, stored⟩
        · rename_i unboxed
          rw [if_neg unboxed]
          exact assignFrom_step assigned

/-- What is stored in an optional is stored layer by layer. -/
theorem stored_step {s : Source β} {o : Option (Val β)} (stored : Stored (.opt T) (typeOps prims (.opt T)) s o v) :
    takenFrom T (typeOps prims T) s o = none ∧ v = .empty ∨
      ∃ a u, takenFrom T (typeOps prims T) s o = some a ∧ v = .full u ∧
        Stored T (typeOps prims T) a (o.bind Val.content) u := by
  cases o with
  | none => exact made_step (typeOps_lawful (fun k => (consistent k).toLawful) T) stored
  | some q =>
    rcases stored with ⟨_, assigned⟩ | ⟨⟨k, same⟩, _⟩
    · exact assign_step consistent assigned
    · cases same

/-- A `T` is stored as it is. -/
theorem stored_own {o : Option (Val β)} (stored : Stored T (typeOps prims T) ⟨T, c, x⟩ o v) : v = x := by
  have lawful := typeOps_lawful (fun k => (consistent k).toLawful) T
  have copied : Made T (typeOps prims T) ⟨T, c, x⟩ v → v = x := by
    intro made
    rw [Made, if_pos rfl] at made
    obtain ⟨cat, copied⟩ := made
    exact lawful.copies _ _ _ copied
  cases o with
  | none => exact copied stored
  | some t =>
    rcases stored with ⟨_, assigned⟩ | ⟨_, made⟩
    · exact typeOps_overwrites consistent T _ _ _ _ assigned
    · exact copied made

end Assignment

end BoostOptional.Conversion
