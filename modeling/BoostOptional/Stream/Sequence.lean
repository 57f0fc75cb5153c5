import BoostOptional.Stream.Optional
import BoostOptional.Stream.Moves

/-!
Optionals of a type that is no optional, written one after another and read back. There is no
closing delimiter: a value ends where the tag of the next optional begins.
-/

namespace BoostOptional.Stream
open Conversion

variable {β : Type}

/-! ### Sequences -/

/-- `out << v1 << v2 ...` on an empty stream -/
def writeAll (codec : Codec (Val β)) (vs : List (Val β)) : OStream :=
  vs.foldl (fun out v => insertOptional codec v out) OStream.empty

/-- `in >> v1 >> v2 ...` -/
def readAll (codec : Codec (Val β)) (assign : Val β → Val β → Option (Val β)) :
    List (Val β) → IStream → Option (List (Val β) × IStream)
  | [], input => some ([], input)
  | v :: vs, input => do
    let (v, input) ← extractOptional codec assign v input
    let (vs, input) ← readAll codec assign vs input
    some (v :: vs, input)

section Sequence

variable {codec : Codec (Val β)} {assign : Val β → Val β → Option (Val β)}

def text (codec : Codec (Val β)) (v : Val β) : List Char :=
  (insertOptional codec v OStream.empty).written

theorem insertOptional_good (v : Val β) {out : OStream} (good : out.good = true) :
    insertOptional codec v out = { out with written := out.written ++ text codec v } := by
  cases v <;> simp [insertOptional, text, OStream.write, OStream.empty, good]

theorem written_foldl (vs : List (Val β)) {out : OStream} (good : out.good = true) :
    (vs.foldl (fun out v => insertOptional codec v out) out).written = out.written ++ vs.flatMap
      (text codec) := by
  induction vs generalizing out with
  | nil => simp
  | cons v vs ih =>
    have step := ih (show ({ out with written := out.written ++ text codec v } : OStream).good = true from good)
    rw [List.foldl_cons, insertOptional_good v good, step, List.flatMap_cons, List.append_assoc]

theorem writeAll_written (vs : List (Val β)) : (writeAll codec vs).written = vs.flatMap (text codec) :=
  (written_foldl vs rfl).trans (List.nil_append _)

variable (codec) in
theorem text_tagged (v : Val β) : ∃ tail, text codec v = ' ' :: tail ∨ text codec v = '-' :: tail := by
  cases v with
  | base b | empty => exact ⟨['-'], .inr rfl⟩
  | full x => exact ⟨codec.insert x, .inl rfl⟩

theorem follows_text (vs : List (Val β)) {rest : List Char} (follows : Follows rest) :
    Follows (vs.flatMap (text codec) ++ rest) := by
  cases vs with
  | nil => exact follows
  | cons v vs =>
    obtain ⟨tail, tag⟩ := text_tagged codec v
    refine .inr ⟨tail ++ vs.flatMap (text codec) ++ rest, ?_⟩
    rcases tag with tag | tag <;> simp [tag]

theorem text_not_nil {v : Val β} {vs : List (Val β)} {rest : List Char} :
    (v :: vs).flatMap (text codec) ++ rest ≠ [] := by
  obtain ⟨tail, tag⟩ := text_tagged codec v
  rcases tag with tag | tag <;> simp [tag]

theorem readAll_reads {T : Ty}
    (reads : ∀ old v, old.HasType T → v.HasType T → ReadsBack (optionalCodec codec assign) old v)
    {done olds : List (Val β)} (typed : ∀ v ∈ done, v.HasType T) (oldTyped : ∀ v ∈ olds, v.HasType T)
    (length : olds.length = done.length) {rest : List Char} (follows : Follows rest) {input : IStream}
    (good : input.good = true) (unread : input.unread = done.flatMap (text codec) ++ rest) :
    ∃ input', readAll codec assign olds input = some (done, input') ∧ input'.unread = rest ∧
      input'.fail = false ∧
      (rest ≠ [] → input'.good = true) := by
  -- The unread text is that of the optionals to come. The stream is good as long as there is any.
  induction done generalizing olds input with
  | nil =>
    obtain rfl := List.length_eq_zero_iff.mp length
    exact ⟨input, rfl, unread, IStream.good_fail good, fun _ => good⟩
  | cons v done ih =>
    obtain ⟨old, olds, rfl⟩ := List.exists_cons_of_length_eq_add_one length
    rw [List.flatMap_cons, List.append_assoc] at unread
    obtain ⟨next, run, left, quiet, ready⟩ := reads old v (oldTyped old (.head _))
      (typed v (.head _)) _ input
      (follows_text done follows) good unread
    have run : extractOptional codec assign old input = some (v, next) := run
    cases done with
    | nil =>
      obtain rfl : olds = [] := List.length_eq_zero_iff.mp (by simpa using length)
      refine ⟨next, ?_, left, quiet, ready⟩
      simp [readAll, run]
    | cons u done =>
      obtain ⟨last, run', done'⟩ := ih (fun v member => typed v (.tail _ member))
        (fun v member => oldTyped v (.tail _ member)) (by simpa using length) (ready text_not_nil) left
      refine ⟨last, ?_, done'⟩
      simp [readAll, run, run']

/-- After any number of reads the optionals are the ones written, and what is left to read is the
text of the others. -/
theorem readAll_take {T : Ty}
    (reads : ∀ old v, old.HasType T → v.HasType T → ReadsBack (optionalCodec codec assign) old v)
    {vs olds : List (Val β)} (typed : ∀ v ∈ vs, v.HasType T) (oldTyped : ∀ v ∈ olds, v.HasType T)
    (length : olds.length = vs.length) {rest : List Char} (follows : Follows rest) {input : IStream}
    (good : input.good = true) (unread : input.unread = (writeAll codec vs).written ++ rest) (n : Nat) :
    ∃ input', readAll codec assign (olds.take n) input = some (vs.take n, input') ∧
      input'.unread = (writeAll codec (vs.drop n)).written ++ rest ∧ input'.fail = false ∧
      (input'.unread ≠ [] → input'.good = true) := by
  have parts : input.unread = (vs.take n).flatMap (text codec) ++ ((writeAll codec (vs.drop n)).written ++ rest) := by
    rw [unread, writeAll_written, writeAll_written, ← List.append_assoc, ← List.flatMap_append,
      List.take_append_drop]
  have next : Follows ((writeAll codec (vs.drop n)).written ++ rest) := by
    rw [writeAll_written]
    exact follows_text (vs.drop n) follows
  have taken : (olds.take n).length = (vs.take n).length := by simp [length]
  obtain ⟨input', run, left, quiet, ready⟩ := readAll_reads reads
    (fun v member => typed v (List.mem_of_mem_take member))
    (fun v member => oldTyped v (List.mem_of_mem_take member)) taken next good parts
  exact ⟨input', run, left, quiet, left ▸ ready⟩

end Sequence

section RoundTrip

variable (storage : Storage) {k : Nat} {ops : TypeOps β} (movable : Movable k ops)
    {codec : Codec (Val β)}
  (reads : ∀ b, ReadsBack codec codec.initial (.base b))

include movable reads

theorem readsBack_flat {old v : Val β} (oldTyped : old.HasType (.opt (.prim k)))
    (typed : v.HasType (.opt (.prim k))) :
    ReadsBack (optionalCodec codec (assignMoved storage (.prim k) ops)) old v := by
  cases v with
  | base b => cases typed
  | empty => exact reads_empty old
  | full x =>
    obtain ⟨b, rfl⟩ := Val.HasType.base (k := k) typed
    exact reads_full (reads b) (assignMoved_flat movable storage oldTyped typed)

theorem list_roundTrip (vs olds : List (Val β)) (typed : ∀ v ∈ vs, v.HasType (.opt (.prim k)))
    (oldTyped : ∀ v ∈ olds, v.HasType (.opt (.prim k))) (length : olds.length = vs.length)
    {rest : List Char}
    (follows : Follows rest) {input : IStream} (good : input.good = true)
    (unread : input.unread = (writeAll codec vs).written ++ rest) (n : Nat) :
    ∃ input', readAll codec (assignMoved storage (.prim k) ops)
      (olds.take n) input = some (vs.take n, input') ∧
      input'.unread = (writeAll codec (vs.drop n)).written ++ rest ∧ input'.fail = false ∧
      (input'.unread ≠ [] → input'.good = true) :=
  readAll_take (fun _ _ => readsBack_flat storage movable reads) typed oldTyped length follows good unread n

end RoundTrip

/-! ### Booleans -/

def arithmetic : TypeOps β where
  isScalar := true
  standard X := match X with | .prim _ => true | .opt _ => false
  convertible _ _ := false
  constructible X _ := match X with | .prim _ => true | .opt _ => false
  assignable X _ := match X with | .prim _ => true | .opt _ => false
  convert X _ x := match X with | .prim _ => some x | .opt _ => none
  construct X _ x := match X with | .prim _ => some x | .opt _ => none
  assign X _ _ x := match X with | .prim _ => some x | .opt _ => none

theorem arithmetic_movable (k : Nat) : Movable k (arithmetic : TypeOps β) :=
  ⟨rfl, rfl, fun _ => rfl, fun _ _ => rfl⟩

/-- A `bool` is written as a digit. The extractor skips white space and takes all digits there are. -/
def boolCodec : Codec (Val Bool) where
  insert
    | .base b => if b then ['1'] else ['0']
    | _ => []
  initial := .base false
  extract old input :=
    if input.good then
      let field := input.unread.dropWhile Char.isWhitespace
      let rest := field.dropWhile Char.isDigit
      let input := { input with unread := rest, eof := rest.isEmpty }
      match field.takeWhile Char.isDigit with
      | ['0'] => some (.base false, input)
      | ['1'] => some (.base true, input)
      | _ => some (old, input.setFail)
    else some (old, input.setFail)

theorem boolCodec_readsBack (old : Val Bool) (b : Bool) : ReadsBack boolCodec old (.base b) := by
  intro rest input follows good unread
  have stops : rest.dropWhile Char.isDigit = rest ∧ rest.takeWhile Char.isDigit = [] := by
    rcases follows with rfl | ⟨tail, rfl | rfl⟩ <;> exact ⟨rfl, rfl⟩
  have quiet : input.fail = false := IStream.good_fail good
  refine ⟨{ input with unread := rest, eof := rest.isEmpty }, ?_, rfl, quiet, fun more => ?_⟩
  · cases b <;> simp [boolCodec, good, unread, stops, Char.isWhitespace, Char.isDigit]
  · simp only [IStream.good, Bool.and_eq_true, Bool.not_eq_true'] at good ⊢
    simp [good, more]

/-- Two optionals and an empty one between them, read into optionals that hold something else. -/
theorem list_roundTrip_bools :
    ∃ input', readAll boolCodec (assignMoved .union (.prim 0) arithmetic) [.empty, .full (.base true)]
        ⟨" 1-- 0".toList, false, false, false⟩ = some ([.full (.base true), .empty], input') ∧
      input'.unread = (writeAll boolCodec [.full (.base false)]).written ++ [] ∧ input'.fail = false ∧
      (input'.unread ≠ [] → input'.good = true) := by
  refine list_roundTrip .union (arithmetic_movable 0) (boolCodec_readsBack _)
    [.full (.base true), .empty, .full (.base false)] [.empty, .full (.base true), .empty] ?_ ?_ rfl
    (.inl rfl) rfl
    (by decide) 2
  · simp [Val.HasType]
  · simp [Val.HasType]

end BoostOptional.Stream
