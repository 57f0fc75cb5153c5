import BoostOptional.Stream.Nested

/-!
What the extractor of `optional<T>` leaves in its target, on any text. `T x;` is indeterminate for
a scalar `T`: a value is an `Option`, and `none` one that nothing has been given to.
-/

namespace BoostOptional.Conversion

/-- Nothing in the value is indeterminate. -/
def Val.determinate {β : Type} : Val (Option β) → Bool
  | .base v => v.isSome
  | .empty => true
  | .full x => x.determinate

end BoostOptional.Conversion

namespace BoostOptional.Stream
open Conversion

variable {β : Type}

/-! ### The tag -/

section Tag

variable {codec : Codec (Val β)} {assign : Val β → Val β → Option (Val β)} {input : IStream}

theorem extract_value (good : input.good = true) {rest : List Char}
    (unread : input.unread = ' ' :: rest)
    {x : Val β} {after : IStream}
    (read : codec.extract codec.initial { input with unread := rest } = some (x, after)) (v : Val β) :
    extractOptional codec assign v input = (assign v x).map fun v => (v, after) := by
  have first := IStream.get_cons good unread
  simp only [extractOptional, good, if_true, first, read, Option.bind_eq_bind, Option.bind_some]
  cases assign v x <;> rfl

theorem extract_none (good : input.good = true) {rest : List Char}
    (unread : input.unread = '-' :: '-' :: rest)
    (v : Val β) : extractOptional codec assign v input = some (.empty, { input with unread := rest }) := by
  have first := IStream.get_cons good unread
  have second : IStream.get { input with unread := '-' :: rest } = (some '-', { input with unread := rest }) :=
    IStream.get_cons good rfl
  simp only [extractOptional, good, if_true, first, second, Option.some.injEq, Char.reduceEq, if_false]

/-- A text that begins with neither tag. -/
def Untagged (text : List Char) : Prop :=
  (∀ rest, text ≠ ' ' :: rest) ∧ ∀ rest, text ≠ '-' :: '-' :: rest

theorem tag_cases (text : List Char) :
    (∃ rest, text = ' ' :: rest) ∨ (∃ rest, text = '-' :: '-' :: rest) ∨ Untagged text := by
  by_cases value : ∃ rest, text = ' ' :: rest
  · exact .inl value
  · by_cases empty : ∃ rest, text = '-' :: '-' :: rest
    · exact .inr (.inl empty)
    · exact .inr (.inr ⟨not_exists.mp value, not_exists.mp empty⟩)

theorem extract_untagged (good : input.good = true) (untagged : Untagged input.unread) :
    ∃ after, ∀ v, extractOptional codec assign v input = some (v, after) := by
  -- The target is left alone. What is consumed does not depend on it.
  obtain ⟨noValue, noEmpty⟩ := untagged
  cases unread : input.unread with
  | nil =>
    refine ⟨({ input with eof := true, fail := true } : IStream).setFail, fun v => ?_⟩
    have got : input.get = (none, { input with eof := true, fail := true }) := by
      simp only [IStream.get, good, if_true, unread]
    simp only [extractOptional, good, if_true, got, reduceCtorEq, if_false]
  | cons c rest =>
    have first := IStream.get_cons good unread
    have notSpace : c ≠ ' ' := by
      rintro rfl
      exact noValue rest unread
    by_cases dash : c = '-'
    · subst dash
      cases rest with
      | nil =>
        refine ⟨({ input with unread := [], eof := true, fail := true } : IStream).setFail, fun v => ?_⟩
        have second : IStream.get { input with unread := [] } =
            (none, { input with unread := [], eof := true, fail := true }) := by
          simp only [IStream.get, IStream.good_with_unread, good, if_true]
        simp only [extractOptional, good, if_true, first, Option.some.injEq, Char.reduceEq,
          if_false, second, reduceCtorEq]
      | cons d rest =>
        refine ⟨({ input with unread := rest } : IStream).setFail, fun v => ?_⟩
        have second : IStream.get { input with unread := d :: rest } = (some d, { input with unread := rest }) :=
          IStream.get_cons good rfl
        have notDash : d ≠ '-' := by
          rintro rfl
          exact noEmpty rest unread
        simp only [extractOptional, good, if_true, first, Option.some.injEq, Char.reduceEq,
          if_false, second, notDash]
    · refine ⟨({ input with unread := rest } : IStream).setFail, fun v => ?_⟩
      simp only [extractOptional, good, if_true, first, Option.some.injEq, notSpace, dash, if_false]

end Tag

/-! ### A default-constructed `T` -/

/-- `T`'s extractor always leaves a `T` in its target, indeterminate or not. -/
structure Extracts (k : Nat) (codec : Codec (Val β)) : Prop where
  initial : codec.initial.HasType (.prim k)
  extract : ∀ x input, x.HasType (.prim k) →
    ∃ y after, codec.extract x input = some (y, after) ∧ y.HasType (.prim k)

section Fresh

variable (codecs : Nat → Codec (Val (Option β)))

/-- `T x; in >> x;` leaves nothing in `x` indeterminate. For a `T` that is an optional this is a
question about the text after its tag. -/
def Initializes : Ty → IStream → Prop
  | .prim k, input =>
    ∀ x after, (codecs k).extract (codecs k).initial input = some (x, after) → x.determinate = true
  | .opt U, input =>
    input.good = true → ∀ rest, input.unread = ' ' :: rest → Initializes U { input with unread := rest }

/-- The codecs of all types, where `assigns T` is `v = move_(x)` for a `T` `x`. -/
def codecWith (assigns : Ty → Val (Option β) → Val (Option β) → Option (Val (Option β))) :
    Ty → Codec (Val (Option β))
  | .prim k => codecs k
  | .opt T => optionalCodec (codecWith assigns T) (assigns T)

theorem codecOf_eq (prims : Nat → TypeOps (Option β)) (T : Ty) :
    codecOf prims codecs T = codecWith codecs (fun T => assign T (typeOps prims T) T .rvalue) T := by
  induction T with
  | prim k => rfl
  | opt U ih => exact congrArg (fun codec => optionalCodec codec _) ih

/-- `v = move_(x)` leaves `left x` in `v`, whatever `v` held. It is asked of each `x` that can be
extracted, which `Shape` tells. -/
structure Leaves (assigns : Ty → Val (Option β) → Val (Option β) → Option (Val (Option β)))
    (Shape : Val (Option β) → Prop) (left : Val (Option β) → Val (Option β)) : Prop where
  assigned : ∀ T old x, old.HasType (.opt T) → x.HasType T → Shape x → assigns T old x = some (left x)
  kept : ∀ x, Shape x → left x = .full x ∧ Shape (.full x) ∨ left x = .empty ∧ x = .empty
  base : ∀ v, Shape (.base v)
  empty : Shape .empty

/-- What can be in an `x` that has been extracted into since it was declared. -/
structure Fresh (Shape : Val (Option β) → Prop) (T : Ty) (input : IStream) (x : Val (Option β)) :
    Prop where
  typed : x.HasType T
  shape : Shape x
  determinate : x.determinate = true ↔ Initializes codecs T input

variable {codecs} {assigns : Ty → Val (Option β) → Val (Option β) → Option (Val (Option β))}
  {Shape : Val (Option β) → Prop} {left : Val (Option β) → Val (Option β)}
  (leaves : Leaves assigns Shape left) (extracts : ∀ k, Extracts k (codecs k))

include leaves

theorem fresh_empty {U : Ty} {input : IStream}
    (skips : input.good = true → ∀ rest, input.unread = ' ' :: rest →
      Initializes codecs U { input with unread := rest }) :
    Fresh codecs Shape (.opt U) input .empty :=
  ⟨trivial, leaves.empty, fun _ => skips, fun _ => rfl⟩

include extracts

theorem extract_fresh (T : Ty) (input : IStream) :
    ∃ x after, (codecWith codecs assigns T).extract (codecWith codecs assigns T).initial input =
        some (x, after) ∧
      Fresh codecs Shape T input x := by
  -- Induction on the depth: the optionals in `x` are themselves extracted into fresh ones.
  induction T generalizing input with
  | prim k =>
    obtain ⟨x, after, read, typed⟩ := (extracts k).extract _ input (extracts k).initial
    refine ⟨x, after, read, typed, ?_, ?_⟩
    · cases x with
      | base b => exact leaves.base b
      | empty | full _ => cases typed
    · constructor
      · intro determinate y end_ again
        change (codecs k).extract (codecs k).initial input = _ at read
        rw [read] at again
        cases again
        exact determinate
      · intro initializes
        exact initializes x after read
  | opt U ih =>
    change ∃ x after, extractOptional (codecWith codecs assigns U) _ .empty input = _ ∧ _
    by_cases good : input.good = true
    · rcases tag_cases input.unread with ⟨rest, unread⟩ | ⟨rest, unread⟩ | untagged
      · obtain ⟨x, after, read, fresh⟩ := ih { input with unread := rest }
        have oldTyped : (.empty : Val (Option β)).HasType (.opt U) := trivial
        have only : ∀ other, input.unread = ' ' :: other → other = rest := by
          intro other same
          rw [unread] at same
          exact (List.cons.inj same).2.symm
        refine ⟨left x, after, ?_, ?_⟩
        · rw [extract_value good unread read, leaves.assigned U _ x oldTyped fresh.typed fresh.shape]
          rfl
        · rcases leaves.kept x fresh.shape with ⟨full, shape⟩ | ⟨empty, rfl⟩
          · rw [full]
            refine ⟨fresh.typed, shape, ?_⟩
            constructor
            · intro determinate _ other same
              rw [only other same]
              exact fresh.determinate.mp determinate
            · intro initializes
              exact fresh.determinate.mpr (initializes good rest unread)
          · rw [empty]
            apply fresh_empty leaves
            intro _ other same
            rw [only other same]
            exact fresh.determinate.mp rfl
      · refine ⟨.empty, _, extract_none good unread .empty, fresh_empty leaves ?_⟩
        intro _ other same
        rw [unread] at same
        cases same
      · obtain ⟨after, read⟩ :
            ∃ after, ∀ v, extractOptional (codecWith codecs assigns U)
              (assigns U) v input = some (v, after) :=
          extract_untagged good untagged
        exact ⟨.empty, after, read .empty,
          fresh_empty leaves fun _ other same => (untagged.1 other same).elim⟩
    · refine ⟨.empty, input, ?_, fresh_empty leaves fun isGood => (good isGood).elim⟩
      simp only [extractOptional, good, if_false, Bool.false_eq_true]

end Fresh

/-! ### The target -/

/-- From every target the extractor ends in the same state: without a value, or with what `T`'s
extractor put into a default-constructed `T`. -/
def Determined (codec : Codec (Val (Option β)))
    (assign : Val (Option β) → Val (Option β) → Option (Val (Option β)))
    (T : Ty) (input : IStream) : Prop :=
  ∃ r after, (∀ old, old.HasType (.opt T) → extractOptional codec assign old input = some (r, after)) ∧
    (r = .empty ∨ ∃ x rest, r = .full x ∧ x.determinate = true ∧ input.unread = ' ' :: rest ∧
      codec.extract codec.initial { input with unread := rest } = some (x, after))

/-- A well-formed tag, and after that of a value a text from which `T`'s extractor initializes its
target. -/
def Accepts (codecs : Nat → Codec (Val (Option β))) (T : Ty) (input : IStream) : Prop :=
  (∃ rest, input.unread = '-' :: '-' :: rest) ∨
    ∃ rest, input.unread = ' ' :: rest ∧ Initializes codecs T { input with unread := rest }

section Target

variable {codecs : Nat → Codec (Val (Option β))} (extracts : ∀ k, Extracts k (codecs k))

include extracts

theorem determined_iff {assigns : Ty → Val (Option β) → Val (Option β) → Option (Val (Option β))}
    {Shape : Val (Option β) → Prop} {left : Val (Option β) → Val (Option β)}
    (leaves : Leaves assigns Shape left) {T : Ty} {input : IStream} (good : input.good = true) :
    Determined (codecWith codecs assigns T) (assigns T) T input ↔ Accepts codecs T input := by
  have emptyTyped : (.empty : Val (Option β)).HasType (.opt T) := trivial
  rcases tag_cases input.unread with ⟨rest, unread⟩ | ⟨rest, unread⟩ | untagged
  · obtain ⟨x, after, read, fresh⟩ := extract_fresh leaves extracts T { input with unread := rest }
    have result : ∀ old, old.HasType (.opt T) →
        extractOptional (codecWith codecs assigns T) (assigns T) old input = some (left x, after) := by
      intro old oldTyped
      rw [extract_value good unread read, leaves.assigned T old x oldTyped fresh.typed fresh.shape]
      rfl
    constructor
    · rintro ⟨r, end_, same, shape⟩
      refine .inr ⟨rest, unread, fresh.determinate.mp ?_⟩
      have reached := result .empty emptyTyped
      rcases leaves.kept x fresh.shape with ⟨full, _⟩ | ⟨_, rfl⟩
      · rw [full, same .empty emptyTyped] at reached
        cases reached
        rcases shape with no | ⟨y, _, held, determinate, _⟩
        · cases no
        · cases held
          exact determinate
      · rfl
    · rintro (⟨other, dashes⟩ | ⟨other, space, initializes⟩)
      · rw [unread] at dashes
        cases dashes
      · rw [unread] at space
        obtain rfl : rest = other := (List.cons.inj space).2
        refine ⟨_, after, result, ?_⟩
        rcases leaves.kept x fresh.shape with ⟨full, _⟩ | ⟨empty, _⟩
        · rw [full]
          exact .inr ⟨x, rest, rfl, fresh.determinate.mpr initializes, unread, read⟩
        · exact .inl empty
  · constructor
    · intro _
      exact .inl ⟨rest, unread⟩
    · intro _
      exact ⟨.empty, _, fun old _ => extract_none good unread old, .inl rfl⟩
  · constructor
    · rintro ⟨r, end_, same, _⟩
      obtain ⟨x, _, _, fresh⟩ := extract_fresh leaves extracts T input
      obtain ⟨after, kept⟩ :
          ∃ after, ∀ v, extractOptional (codecWith codecs assigns T)
            (assigns T) v input = some (v, after) :=
        extract_untagged good untagged
      have fromEmpty := (kept .empty).symm.trans (same .empty emptyTyped)
      have fromFull := (kept (.full x)).symm.trans (same (.full x) fresh.typed)
      have both := fromEmpty.trans fromFull.symm
      cases both
    · rintro (⟨rest, unread⟩ | ⟨rest, unread, _⟩)
      · exact (untagged.2 rest unread).elim
      · exact (untagged.1 rest unread).elim

end Target

/-! ### The implementations -/

/-- `v = move_(x)` in the legacy implementation, over a storage for each type that is no optional. -/
def legacyMoved (storage : Nat → Storage) (prims : Nat → TypeOps (Option β)) (T : Ty) :
    Val (Option β) → Val (Option β) → Option (Val (Option β)) :=
  Legacy.assign T (Legacy.typeOps (fun k => { prims k with isScalar := storage k = .direct }) T) T .rvalue

section Implementations

variable {prims : Nat → TypeOps (Option β)} {codecs : Nat → Codec (Val (Option β))}
  (movable : ∀ k, Movable k (prims k)) (extracts : ∀ k, Extracts k (codecs k))

include movable

theorem union_leaves :
    Leaves (fun T => assign T (typeOps prims T) T .rvalue) (fun x => x = .empty ∨ x.solid = true)
      (fun x => if x.solid then .full x else .empty) where
  assigned T old x oldTyped typed shape := by
    rw [assign_own_moved movable oldTyped typed]
    rcases shape with rfl | solid
    · simp [assigned, Val.solid]
    · rw [if_pos solid, (assigned_eq_iff old x).mpr (keeps_solid solid)]
  kept x shape := by
    rcases shape with rfl | solid
    · exact .inr ⟨rfl, rfl⟩
    · exact .inl ⟨if_pos solid, .inr solid⟩
  base _ := .inr rfl
  empty := .inl rfl

theorem legacy_leaves (storage : Nat → Storage) :
    Leaves (legacyMoved storage prims) (fun _ => True) .full where
  assigned T old x oldTyped typed _ := by
    have moved : ∀ k, Movable k { prims k with isScalar := storage k = .direct } := fun k =>
      ⟨(movable k).constructible, (movable k).assignable, (movable k).construct, (movable k).assign⟩
    exact Legacy.assign_own_moved moved oldTyped typed
  kept _ _ := .inl ⟨rfl, trivial⟩
  base _ := trivial
  empty := trivial

include extracts

variable (prims codecs) in
/-- Extraction depends on the text alone exactly when the text is accepted, for every `T` and in
every implementation. -/
theorem extract_determined {input : IStream} (good : input.good = true) (T : Ty) :
    (Determined (codecOf prims codecs T) (assign T (typeOps prims T) T .rvalue) T input ↔
      Accepts codecs T input) ∧
    ∀ storage, Determined (codecWith codecs (legacyMoved storage prims) T)
    (legacyMoved storage prims T) T
      input ↔ Accepts codecs T input := by
  constructor
  · rw [codecOf_eq]
    exact determined_iff extracts (union_leaves movable) good
  · intro storage
    exact determined_iff extracts (legacy_leaves movable storage) good

end Implementations

/-! ### Characters -/

/-- A `char`: white space is skipped, and the target is left alone when there is no character. -/
def charCodec : Codec (Val (Option Char)) where
  insert
    | .base (some c) => [c]
    | _ => []
  initial := .base none
  extract old input :=
    if input.good then
      match input.unread.dropWhile Char.isWhitespace with
      | c :: rest => some (.base (some c), { input with unread := rest })
      | [] => some (old, { input with unread := [], eof := true, fail := true })
    else some (old, input.setFail)

theorem charCodec_extracts (k : Nat) : Extracts k charCodec := by
  constructor
  · trivial
  · intro x input typed
    simp only [charCodec]
    split
    · split
      · exact ⟨_, _, rfl, trivial⟩
      · exact ⟨_, _, rfl, typed⟩
    · exact ⟨_, _, rfl, typed⟩

/-- A text without a tag leaves the target as it was, and a text that ends after the tag of a value
leaves an indeterminate one. -/
theorem extract_undetermined :
    ¬ Determined charCodec (assignMoved .union (.prim 0) arithmetic) (.prim 0) ⟨"x".toList, false, false, false⟩ ∧
    ¬ Determined charCodec (assignMoved .union (.prim 0) arithmetic) (.prim 0) ⟨" ".toList, false, false, false⟩ := by
  constructor
  · rintro ⟨r, after, same, _⟩
    have kept := same (.full (.base (some 'a'))) trivial
    have empty := same .empty trivial
    have differ : extractOptional charCodec (assignMoved .union (.prim 0) arithmetic)
      (.full (.base (some 'a')))
        ⟨"x".toList, false, false, false⟩ ≠
      extractOptional charCodec (assignMoved .union (.prim 0) arithmetic) .empty ⟨"x".toList, false, false, false⟩ := by
      decide
    exact differ (kept.trans empty.symm)
  · rintro ⟨r, after, same, shape⟩
    have read : extractOptional charCodec (assignMoved .union (.prim 0) arithmetic) .empty
        ⟨" ".toList, false, false, false⟩ = some (.full (.base none), ⟨[], true, true, false⟩) := by decide
    have reached := read.symm.trans (same .empty trivial)
    cases reached
    rcases shape with no | ⟨x, _, held, determinate, _⟩
    · cases no
    · cases held
      cases determinate

/-- The text of a character, after which there is more. -/
theorem extract_determined_char :
    Determined (codecOf (fun _ => arithmetic) (fun _ => charCodec) (.prim 0))
      (assign (.prim 0) (typeOps (fun _ => arithmetic) (.prim 0)) (.prim 0) .rvalue) (.prim 0)
      ⟨" b--".toList, false, false, false⟩ := by
  refine (extract_determined (fun _ => arithmetic) (fun _ => charCodec) arithmetic_movable
    charCodec_extracts rfl (.prim 0)).1.mpr (.inr ⟨"b--".toList, rfl, ?_⟩)
  intro x after read
  cases read
  rfl

end BoostOptional.Stream
