import BoostOptional.Conversion.Layers

/-!
Construction and assignment of an `optional<T>` from the same source, compared. They agree except
where the assignment that is selected sees a different thing in the source than the constructor
does, in some layer that they reach: an empty `T` taken for an empty optional, or an optional taken
for a `T`.
-/

namespace BoostOptional.Conversion
open Overload

variable {β : Type}

section Differs

variable [DecidableEq β] (prims : Nat → TypeOps β)

/-- What a type that is no optional is made into from `s`. -/
def madeFrom (k : Nat) (s : Source β) : Option (Val β) :=
  if s.type = .prim k then some s.value
  else ((prims k).construct s.type s.cat s.value).or ((prims k).convert s.type s.cat s.value)

/-- Whether an `S` that is stored from `s` where `o` is differs from one made from `s'`. Each layer of an
optional hands on what it takes, and one that takes nothing is empty. In the end types that are no
optionals are made from the two sources. -/
def differs : Ty → Option (Val β) → Source β → Source β → Bool
  | .prim k, _, s, s' => madeFrom prims k s ≠ madeFrom prims k s'
  | .opt T, o, s, s' =>
    match takenFrom T (typeOps prims T) s o, constructedFrom T (typeOps prims T) s' with
    | none, none => false
    | some a, some a' => differs T (o.bind Val.content) a a'
    | _, _ => true

/-- Where `o = x` and `optional<T> p(x)` differ. -/
def Disagrees (T X : Ty) (c : Cat) (o x : Val β) : Prop :=
  differs prims (.opt T) (some o) ⟨X, c, x⟩ ⟨X, c, x⟩ = true

instance (T X : Ty) (c : Cat) (o x : Val β) : Decidable (Disagrees prims T X c o x) :=
  inferInstanceAs (Decidable (_ = _))

end Differs

/-- No empty optional in `x` is assigned. Below an empty layer of `o`, `x` is constructed. -/
def keeps : Val β → Val β → Bool
  | _, .empty => false
  | .full t, .full u => keeps t u
  | _, _ => true

section Agreement

variable {prims : Nat → TypeOps β} (consistent : ∀ k, Consistent (.prim k) (prims k))

section Layers

variable {k : Nat} {s s' : Source β} {u v w : Val β}

include consistent

theorem made_prim (made : Made (.prim k) (prims k) s u) : madeFrom prims k s = some u := by
  unfold Made at made
  unfold madeFrom
  split at made
  · rename_i own
    obtain ⟨c, copied⟩ := made
    rw [if_pos own, (consistent k).copies _ _ _ copied]
  · rename_i other
    rw [if_neg other]
    rcases made with built | ⟨able, through⟩
    · rw [built, Option.some_or]
    · cases built : (prims k).construct s.type s.cat s.value with
      | none => rw [Option.none_or, through]
      | some z => rw [Option.some_or, (consistent k).converts _ _ _ _ _ other able through built]

theorem stored_prim {o : Option (Val β)} (stored : Stored (.prim k) (prims k) s o u) :
    madeFrom prims k s = some u := by
  cases o with
  | none => exact made_prim consistent stored
  | some t =>
    rcases stored with ⟨constructible, assigned⟩ | ⟨_, made⟩
    · by_cases own : s.type = .prim k
      · rw [own] at assigned
        rw [madeFrom, if_pos own, (consistent k).overwrites _ _ _ _ assigned]
      · rw [madeFrom, if_neg own, (consistent k).assigns _ _ _ _ _ own (constructible own) assigned, Option.some_or]
    · exact made_prim consistent made

variable [DecidableEq β]

/-- Layer by layer, the two differ exactly where what they are made from does. -/
theorem differs_iff (S : Ty) {o : Option (Val β)} (stored : Stored S (typeOps prims S) s o v)
    (made : Made S (typeOps prims S) s' w) : v ≠ w ↔ differs prims S o s s' = true := by
  induction S generalizing o s s' v w with
  | prim k => simp [differs, stored_prim consistent stored, made_prim consistent made]
  | opt T ih =>
    have lawful := typeOps_lawful (fun k => (consistent k).toLawful) T
    unfold differs
    rcases stored_step consistent stored with ⟨emptied, rfl⟩ | ⟨a, u, taken, rfl, left⟩ <;>
      rcases made_step lawful made with ⟨empty, rfl⟩ | ⟨a', u', given, rfl, right⟩
    · simp [emptied, empty]
    · simp [emptied, given]
    · simp [taken, empty]
    · rw [taken, given, ← ih left right, ne_eq, Val.full.injEq]

end Layers

variable {T X : Ty} {c : Cat} {o x p r : Val β}

include consistent

theorem assign_differs_iff [DecidableEq β] (built : construct T (typeOps prims T) X c x = some p)
    (assigned : assign T (typeOps prims T) X c o x = some r) : r ≠ p ↔ Disagrees prims T X c o x := by
  have constructible : (typeOps prims (.opt T)).constructible X c = true := by
    obtain ⟨f, chosen, _⟩ := Option.bind_eq_some_iff.mp built
    change (resolve (ctors T (typeOps prims T) X c)).isSome = true
    rw [chosen, Option.isSome_some]
  exact differs_iff consistent (.opt T) (.inl ⟨fun _ => constructible, assigned⟩) (made_construct built)

theorem assign_own_prim {k : Nat} (assigned : assign (.prim k) (prims k) (.prim k) c o x = some r) :
    r = .full x := by
  obtain ⟨u, rfl, stored⟩ := assign_step_prim (T := .prim k) consistent assigned
  rw [stored_own (T := .prim k) consistent stored]

theorem assign_own_lvalue {V : Ty} (assigned : assign (.opt V) (typeOps prims (.opt V)) (.opt V) .lvalue o x = some r) :
    r = .full x := by
  have whole : assignedFrom (.opt V) (typeOps prims (.opt V)) ⟨.opt V, .lvalue, x⟩ = some ⟨.opt V, .lvalue, x⟩ := by
    simp [assignedFrom, typeOps, optional, resolve_ctors_same, resolve_assignments_same]
  rcases assign_step consistent assigned with ⟨emptied, _⟩ | ⟨a, u, taken, rfl, stored⟩
  · rw [whole] at emptied
    cases emptied
  · rw [whole] at taken
    obtain rfl := Option.some.inj taken
    rw [stored_own consistent stored]

/-- In an optional without a value, a `V` is constructed as the value of a new `optional<V>`. -/
theorem made_full {V : Ty} (made : Made (.opt V) (typeOps prims (.opt V)) ⟨V, c, x⟩ r) : r = .full x := by
  have lawful := typeOps_lawful (fun k => (consistent k).toLawful) V
  rw [Made, if_neg (Ty.ne_opt V)] at made
  rcases made with built | ⟨_, through⟩
  · exact construct_own lawful built
  · exact convert_own lawful through

/-- A const lvalue or an rvalue is taken for the optional it is, and so is the value in it. -/
theorem assign_own_keeps (typed : x.HasType T) (notLvalue : c ≠ .lvalue)
    (assigned : assign T (typeOps prims T) T c o x = some r) : r = .full x ↔ keeps o x = true := by
  induction T generalizing o x r with
  | prim k =>
    cases x with
    | base b => cases o <;> simp [assign_own_prim consistent assigned, keeps]
    | empty | full _ => cases typed
  | opt V ih =>
    have value : assignedFrom (.opt V) (typeOps prims (.opt V)) ⟨.opt V, c, x⟩ =
        (⟨.opt V, c, x⟩ : Source β).inner c := by
      cases c with
      | lvalue => exact (notLvalue rfl).elim
      | constLvalue | rvalue => simp [assignedFrom]
    rcases assign_step consistent assigned with ⟨emptied, rfl⟩ | ⟨a, u, taken, rfl, stored⟩
    · rw [value] at emptied
      cases x with
      | base b => cases typed
      | empty => simp [keeps]
      | full w => cases emptied
    · rw [value] at taken
      cases x with
      | base b => cases typed
      | empty => cases taken
      | full w =>
        obtain rfl := Option.some.inj taken
        rw [Val.full.injEq]
        cases o with
        | base b | empty => simp [made_full consistent stored, keeps]
        | full t =>
          rcases stored with ⟨_, inner⟩ | ⟨⟨k, same⟩, _⟩
          · exact ih typed inner
          · cases same

/-- Assigned from a `T`, an optional ends with the value of the `T`, unless an empty optional in it is
taken for a value to assign from. -/
theorem assign_own_iff (typed : x.HasType T) (assigned : assign T (typeOps prims T) T c o x = some r) :
    r = .full x ↔ c = .lvalue ∨ keeps o x = true := by
  by_cases lvalue : c = .lvalue
  · subst lvalue
    cases T with
    | prim k => simp [assign_own_prim consistent assigned]
    | opt V => simp [assign_own_lvalue consistent assigned]
  · simp [assign_own_keeps consistent typed lvalue assigned, lvalue]

/-- Assignment against direct construction, and what is left in the optional by assignment from a
`T` and by `reset`. -/
theorem assign_agrees [DecidableEq β] (T : Ty) (o : Val β) :
    (∀ X c x p r, construct T (typeOps prims T) X c x = some p → assign T (typeOps prims T) X c o x = some r →
      (r = p ↔ ¬ Disagrees prims T X c o x)) ∧
    (∀ c x r, x.HasType T → assign T (typeOps prims T) T c o x = some r →
      (r = .full x ↔ c = .lvalue ∨ keeps o x = true)) ∧
    (∀ x r, x.HasType T → reset T (typeOps prims T) o x = some r → (r = .full x ↔ keeps o x = true)) := by
  refine ⟨fun X c x p r built assigned => ?_, fun c x r => assign_own_iff consistent, fun x r typed assigned => ?_⟩
  · rw [← assign_differs_iff consistent built assigned, ne_eq, not_not]
  · exact assign_own_keeps consistent typed (fun same => by cases same) assigned

end Agreement

/-! ### Two types that are no optionals -/

def integer : TypeOps Int where
  isScalar := true
  standard X := match X with | .prim _ => true | .opt _ => false
  convertible _ _ := false
  constructible X _ := match X with | .prim _ => true | .opt _ => false
  assignable X _ := match X with | .prim _ => true | .opt _ => false
  convert X _ x := match X with | .prim _ => some x | .opt _ => none
  construct X _ x := match X with | .prim _ => some x | .opt _ => none
  assign X _ _ x := match X with | .prim _ => some x | .opt _ => none

/-- A type made from anything, optionals included. -/
def anyLike (k : Nat) : TypeOps Int where
  isScalar := false
  standard _ := false
  convertible X _ := X ≠ .prim k
  constructible _ _ := true
  assignable _ _ := true
  convert X _ x := some (wrap X x)
  construct X _ x := some (wrap X x)
  assign X _ _ x := some (wrap X x)
where
  wrap (X : Ty) (x : Val Int) : Val Int :=
    if X = .prim k then x else match x with | .base v => .base v | .empty => .base 0 | .full _ => .base 1

def samples : Nat → TypeOps Int
  | 0 => integer
  | k + 1 => anyLike (k + 1)

theorem samples_lawful (k : Nat) : Lawful (.prim k) (samples k) := by
  cases k with
  | zero =>
    refine ⟨fun c x y made => (Option.some.inj made).symm, fun X c x y z _ _ converted made => ?_,
      fun _ => rfl⟩
    rw [show samples 0 = integer from rfl] at converted made
    cases X with
    | prim k => exact Option.some.inj (converted.symm.trans made)
    | opt U => cases made
  | succ k =>
    refine ⟨fun c x y made => ?_, fun X c x y z _ _ converted made => ?_, fun _ => rfl⟩
    · have made : some (anyLike.wrap (k + 1) (.prim (k + 1)) x) = some y := made
      simpa [anyLike.wrap] using made.symm
    · exact Option.some.inj (converted.symm.trans made)

theorem samples_consistent (k : Nat) : Consistent (.prim k) (samples k) where
  toLawful := samples_lawful k
  overwrites c t x y made := by
    cases k with
    | zero => exact (Option.some.inj made).symm
    | succ k =>
      have made : some (anyLike.wrap (k + 1) (.prim (k + 1)) x) = some y := made
      simpa [anyLike.wrap, eq_comm] using made
  assigns X c t x y _ _ made := by
    cases k with
    | succ k => exact made
    | zero =>
      cases X with
      | prim k => exact made
      | opt U => cases made

/-- An empty `optional<int>` given to an `optional<optional<int>>`, whose `T` takes it alike in
construction and assignment. The same one layer deeper, where the assignment empties the `T`. And an
empty `optional<int>` given to an optional of a type made from anything. -/
theorem assign_empty_disagrees :
    (construct (.opt (.prim 0)) (typeOps samples (.opt (.prim 0))) (.opt (.prim 0)) .constLvalue .empty =
      some (.full .empty) ∧
    assign (.opt (.prim 0)) (typeOps samples (.opt (.prim 0))) (.opt (.prim 0)) .constLvalue (.full .empty) .empty =
      some .empty ∧
    assign (.opt (.prim 0)) (typeOps samples (.opt (.prim 0))) (.opt (.prim 0)) .lvalue (.full .empty) .empty =
      some (.full .empty) ∧
    reset (.opt (.prim 0)) (typeOps samples (.opt (.prim 0))) (.full .empty) .empty = some .empty ∧
    ∀ c, (typeOps samples (.opt (.prim 0))).assign (.opt (.prim 0)) c .empty .empty =
      (typeOps samples (.opt (.prim 0))).construct (.opt (.prim 0)) c .empty) ∧
    (construct (.opt (.opt (.prim 0))) (typeOps samples (.opt (.opt (.prim 0)))) (.opt (.opt (.prim 0))) .rvalue
      (.full .empty) = some (.full (.full .empty)) ∧
    assign (.opt (.opt (.prim 0))) (typeOps samples (.opt (.opt (.prim 0)))) (.opt (.opt (.prim 0))) .rvalue
      (.full (.full (.full (.base 1)))) (.full .empty) = some (.full .empty)) ∧
    construct (.prim 1) (typeOps samples (.prim 1)) (.opt (.prim 0)) .lvalue .empty = some .empty ∧
    assign (.prim 1) (typeOps samples (.prim 1)) (.opt (.prim 0)) .lvalue .empty .empty = some (.full (.base 0)) := by
  refine ⟨⟨by decide, by decide, by decide, by decide, fun c => ?_⟩, ⟨by decide, by decide⟩, by decide, by decide⟩
  cases c <;> decide

theorem assign_agrees_optional_int :
    (some (Val.full (.base 5)) = construct (.prim 0) (typeOps samples (.prim 0))
        (.opt (.prim 0)) .rvalue (.full (.base 5)) ∧
    some (Val.full (.base 5)) =
      assign (.prim 0) (typeOps samples (.prim 0)) (.opt (.prim 0)) .rvalue (.full (.base 2))
      (.full (.base 5))) ∧
    ¬ Disagrees samples (.prim 0) (.opt (.prim 0)) .rvalue (.full (.base 2)) (.full (.base 5)) := by
  have built : construct (.prim 0) (typeOps samples (.prim 0))
    (.opt (.prim 0)) .rvalue (.full (.base 5)) =
      some (.full (.base 5)) := by decide
  have assigned : assign (.prim 0) (typeOps samples (.prim 0))
    (.opt (.prim 0)) .rvalue (.full (.base 2))
      (.full (.base 5)) = some (.full (.base 5)) := by decide
  refine ⟨⟨built.symm, assigned.symm⟩, ?_⟩
  exact ((assign_agrees samples_consistent (.prim 0) (.full (.base 2))).1 (.opt (.prim 0)) .rvalue
    (.full (.base 5)) _ _ built assigned).mp rfl

end BoostOptional.Conversion
