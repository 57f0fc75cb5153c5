import BoostOptional.Stream.Sequence
import BoostOptional.Conversion.Agreement

/-!
Optionals of optionals in a stream. `v = move_(x)` takes an `x` that is itself an optional for the
optional it is: an empty `x` leaves `v` empty.
-/

namespace BoostOptional.Conversion

/-- Engaged in every layer. -/
def Val.solid {β : Type} : Val β → Bool
  | .base _ => true
  | .empty => false
  | .full x => x.solid

end BoostOptional.Conversion

namespace BoostOptional.Stream
open Conversion

variable {β : Type}

/-! ### The assignment that is selected -/

/-- What `o = move_(x)` leaves in an optional `o` of the type of `x`. -/
def assigned : Val β → Val β → Val β
  | _, .empty => .empty
  | .full t, .full u => .full (assigned t u)
  | _, x => .full x

theorem assigned_eq_iff (o x : Val β) : assigned o x = .full x ↔ keeps o x = true := by
  induction x generalizing o with
  | base b => cases o <;> simp [assigned, keeps]
  | empty => simp [assigned, keeps]
  | full u ih =>
    cases o with
    | base b | empty => simp [assigned, keeps]
    | full t => simp [assigned, keeps, ih t]

section Moves

variable {prims : Nat → TypeOps β} (movable : ∀ k, Movable k (prims k))

include movable

theorem construct_moved {T : Ty} {x : Val β} (typed : x.HasType T) :
    (typeOps prims T).construct T .rvalue x = some x := by
  induction T generalizing x with
  | prim k =>
    obtain ⟨b, rfl⟩ := typed.base
    exact (movable k).construct b
  | opt V ih =>
    change construct V (typeOps prims V) (.opt V) .rvalue x = _
    rw [construct_eq (resolve_ctors_same V _ .rvalue), if_pos rfl]
    cases x with
    | base b => cases typed
    | empty => simp [runCtor, asOptional, constructFrom]
    | full u => simp [runCtor, asOptional, constructFrom, ih (x := u) typed]

theorem construct_own_moved {T : Ty} {x : Val β} (typed : x.HasType T) :
    construct T (typeOps prims T) T .rvalue x = some (.full x) := by
  have body : runCtor T (typeOps prims T) T .rvalue x .valueMove = some (.full x) := by
    simp [runCtor, asValue, construct_moved movable typed]
  cases T with
  | prim k => rw [construct_eq (resolve_ctors_prim k _ .rvalue), if_pos rfl, body]
  | opt V => rw [construct_eq (resolve_ctors_own V _ .rvalue), if_pos rfl, body]

omit movable in
theorem own_compiles (V : Ty) :
    (typeOps prims (.opt V)).constructible V .rvalue = true ∧
      (typeOps prims (.opt V)).assignable V .rvalue = true := by
  cases V with
  | prim k => simp [typeOps, Conversion.optional, resolve_ctors_prim, resolve_assignments_prim]
  | opt W => simp [typeOps, Conversion.optional, resolve_ctors_own, resolve_assignments_own]

theorem assign_own_moved {T : Ty} {o x : Val β} (oldTyped : o.HasType (.opt T)) (typed : x.HasType T) :
    assign T (typeOps prims T) T .rvalue o x = some (assigned o x) := by
  induction T generalizing o x with
  | prim k =>
    rw [show typeOps prims (.prim k) = prims k from rfl, assign_flat (movable k) oldTyped typed]
    cases x with
    | base b => cases o <;> rfl
    | empty | full _ => cases typed
  | opt V ih =>
    rw [assign_eq (resolve_assignments_own V _ .rvalue), if_pos rfl]
    change assignFrom (typeOps prims (.opt V)) V .rvalue o x = _
    unfold assignFrom
    rw [if_pos (own_compiles V)]
    cases x with
    | base b => cases typed
    | empty =>
      cases o with
      | base b => cases oldTyped
      | empty | full _ => simp [assigned]
    | full u =>
      cases o with
      | base b => cases oldTyped
      | empty =>
        change (construct V (typeOps prims V) V .rvalue u).map Val.full = _
        rw [construct_own_moved movable (show u.HasType V from typed)]
        rfl
      | full t =>
        change (assign V (typeOps prims V) V .rvalue t u).map Val.full = _
        rw [ih (show t.HasType (.opt V) from oldTyped) (show u.HasType V from typed)]
        rfl

end Moves

/-! ### Codecs of every depth -/

def codecOf (prims : Nat → TypeOps β) (codecs : Nat → Codec (Val β)) : Ty → Codec (Val β)
  | .prim k => codecs k
  | .opt T => optionalCodec (codecOf prims codecs T) (assign T (typeOps prims T) T .rvalue)

/-- What is read back from the text of a value. -/
def collapse (x : Val β) : Val β := if x.solid then x else .empty

theorem collapse_eq_iff (x : Val β) : collapse x = x ↔ x = .empty ∨ x.solid = true := by
  unfold collapse
  split
  · simp [*]
  · simp [*, eq_comm]

theorem keeps_solid {o x : Val β} (solid : x.solid = true) : keeps o x = true := by
  induction x generalizing o with
  | base b => cases o <;> rfl
  | empty => cases solid
  | full u ih =>
    cases o with
    | base b | empty => rfl
    | full t => exact ih solid

theorem assigned_collapse (o x : Val β) : assigned o (collapse x) = collapse (.full x) := by
  by_cases solid : x.solid = true
  · have whole : (Val.full x).solid = true := solid
    rw [collapse, collapse, if_pos solid, if_pos whole]
    exact (assigned_eq_iff o x).mpr (keeps_solid solid)
  · have hollow : ¬ (Val.full x).solid = true := solid
    rw [collapse, collapse, if_neg solid, if_neg hollow, assigned]

theorem collapse_typed {T : Ty} {x : Val β} (typed : x.HasType T) : (collapse x).HasType T := by
  unfold collapse
  split
  · exact typed
  · rename_i hollow
    cases T with
    | opt V => trivial
    | prim k =>
      cases x with
      | base b => exact (hollow rfl).elim
      | empty | full _ => cases typed

section Codecs

variable {prims : Nat → TypeOps β} (movable : ∀ k, Movable k (prims k))

include movable in
theorem readsBack_layer {T : Ty} {codec : Codec (Val β)}
    (reads : ∀ x, x.HasType T → ReadsBack codec codec.initial x)
    {old w : Val β} (oldTyped : old.HasType (.opt T)) (typed : w.HasType (.opt T)) :
    ReadsBack (optionalCodec codec (assign T (typeOps prims T) T .rvalue)) old w ↔
      w = .empty ∨ ∃ x, w = .full x ∧ keeps old x = true := by
  cases w with
  | base b => cases typed
  | empty => simp [ReadsBack, reads_empty]
  | full x =>
    have moved := assign_own_moved movable oldTyped (show x.HasType T from typed)
    have read := reads_full (reads x typed) moved
    simp only [reduceCtorEq, Val.full.injEq, exists_eq_left', false_or]
    rw [← assigned_eq_iff]
    constructor
    · intro back
      exact read.unique back
    · intro same
      rwa [same] at read

variable {codecs : Nat → Codec (Val β)}

include movable in
theorem reads_layer {T : Ty} (inner : ∀ x, x.HasType T →
      Reads (codecOf prims codecs T) (codecOf prims codecs T).initial x (collapse x))
    {old w : Val β} (oldTyped : old.HasType (.opt T)) (typed : w.HasType (.opt T)) :
    Reads (codecOf prims codecs (.opt T)) old w (collapse w) := by
  cases w with
  | base b => cases typed
  | empty => exact reads_empty old
  | full x =>
    have moved := assign_own_moved movable oldTyped (collapse_typed (x := x) typed)
    rw [assigned_collapse] at moved
    exact reads_full (inner x typed) moved

variable (reads : ∀ k b, ReadsBack (codecs k) (codecs k).initial (.base b))

include movable reads

theorem reads_collapse {T : Ty} {x : Val β} (typed : x.HasType T) :
    Reads (codecOf prims codecs T) (codecOf prims codecs T).initial x (collapse x) := by
  -- Induction on the depth. Every layer is read into the empty optional that `T x;` is.
  induction T generalizing x with
  | prim k =>
    obtain ⟨b, rfl⟩ := typed.base
    exact reads k b
  | opt V ih =>
    have fresh : (.empty : Val β).HasType (.opt V) := trivial
    exact reads_layer movable (fun x => ih (x := x)) fresh typed

theorem readsBack_nested {T : Ty} {old w : Val β} (oldTyped : old.HasType (.opt T))
    (typed : w.HasType (.opt T)) :
    ReadsBack (codecOf prims codecs (.opt T)) old w ↔ w = .empty ∨ w.solid = true := by
  have read := reads_layer movable (fun x => reads_collapse movable reads (x := x)) oldTyped typed
  rw [← collapse_eq_iff]
  constructor
  · intro back
    exact read.unique back
  · intro same
    rwa [same] at read

end Codecs

/-- A layer reads back a value exactly when no empty optional in it is assigned, and optionals of
any depth are read back exactly when they are empty or engaged in every layer. -/
theorem nested_roundTrip {prims : Nat → TypeOps β} (movable : ∀ k, Movable k (prims k)) :
    (∀ T codec, (∀ x : Val β, x.HasType T → ReadsBack codec codec.initial x) →
      ∀ old w : Val β, old.HasType (.opt T) → w.HasType (.opt T) →
        (ReadsBack (optionalCodec codec (assign T (typeOps prims T) T .rvalue)) old w ↔
          w = .empty ∨ ∃ x, w = .full x ∧ keeps old x = true)) ∧
    (∀ codecs, (∀ k (b : β), ReadsBack (codecs k) (codecs k).initial (.base b)) →
      ∀ T, ∀ old w : Val β, old.HasType (.opt T) → w.HasType (.opt T) →
        (ReadsBack (codecOf prims codecs (.opt T)) old w ↔ w = .empty ∨ w.solid = true)) := by
  constructor
  · intro T codec reads old w oldTyped typed
    exact readsBack_layer movable reads oldTyped typed
  · intro codecs reads T old w oldTyped typed
    exact readsBack_nested movable reads oldTyped typed

/-- An `optional<optional<bool>>` that holds an empty optional is written as one tag inside another,
and is read back empty, although every `optional<bool>` is read back as it was. -/
theorem nested_empty_lost :
    (∀ old x : Val Bool, old.HasType (.opt (.prim 0)) → x.HasType (.opt (.prim 0)) →
      ReadsBack (codecOf (fun _ => arithmetic) (fun _ => boolCodec) (.opt (.prim 0))) old x) ∧
    (codecOf (fun _ => arithmetic) (fun _ => boolCodec) (.opt (.opt (.prim 0)))).insert (.full .empty) = " --".toList ∧
    (codecOf (fun _ => arithmetic) (fun _ => boolCodec) (.opt (.opt (.prim 0)))).extract .empty
      ⟨" --".toList, false, false, false⟩ = some (.empty, ⟨[], false, false, false⟩) ∧
    ¬ ReadsBack (codecOf (fun _ => arithmetic) (fun _ => boolCodec) (.opt (.opt (.prim 0)))) .empty
      (.full .empty) := by
  refine ⟨?_, by decide, by decide, ?_⟩
  · intro old x oldTyped typed
    apply (readsBack_nested arithmetic_movable (fun _ => boolCodec_readsBack _) oldTyped typed).mpr
    cases x with
    | base b => cases typed
    | empty => exact .inl rfl
    | full u =>
      cases u with
      | base b => exact .inr rfl
      | empty | full _ => cases typed
  · intro back
    have oldTyped : (.empty : Val Bool).HasType (.opt (.opt (.prim 0))) := trivial
    have typed : (.full .empty : Val Bool).HasType (.opt (.opt (.prim 0))) := trivial
    rcases (readsBack_nested arithmetic_movable (fun _ => boolCodec_readsBack _) oldTyped typed).mp back with same | solid
    · cases same
    · cases solid

theorem nested_roundTrip_bool :
    ReadsBack (codecOf (fun _ => arithmetic) (fun _ => boolCodec) (.opt (.opt (.prim 0))))
      (.full .empty)
      (.full (.full (.base true))) ∧
    ReadsBack (optionalCodec boolCodec
      (assign (.prim 0) (typeOps (fun _ => arithmetic) (.prim 0)) (.prim 0) .rvalue)) .empty
      (.full (.base true)) := by
  constructor
  · exact ((nested_roundTrip arithmetic_movable).2 (fun _ => boolCodec)
      (fun _ => boolCodec_readsBack _) (.opt (.prim 0))
      (.full .empty) (.full (.full (.base true))) trivial trivial).mpr (.inr rfl)
  · refine ((nested_roundTrip arithmetic_movable).1 (.prim 0) boolCodec ?_ .empty
      (.full (.base true)) trivial trivial).mpr
      (.inr ⟨.base true, rfl, rfl⟩)
    intro x typed
    obtain ⟨b, rfl⟩ := Val.HasType.base (k := 0) typed
    exact boolCodec_readsBack _ b

end BoostOptional.Stream
