import BoostOptional.Stream.Basic
import BoostOptional.Conversion.Types

/-!
The inserter and the extractor of `optional<T>` (`optional_io.hpp`), over those of `T` and the
assignment that `v = move_(x)` selects.
-/

namespace BoostOptional.Stream
open Conversion

variable {β : Type} (codec : Codec (Val β))

/-- `operator<<(out, optional<T> const& v)` -/
def insertOptional (v : Val β) (out : OStream) : OStream :=
  if out.good then
    match v with
    | .full x => (out.write [' ']).write (codec.insert x)
    | _ => out.write ['-', '-']
  else out

/-- `operator>>(in, optional<T>& v)`, where `assign` is `v = move_(x)`. -/
def extractOptional (assign : Val β → Val β → Option (Val β)) (v : Val β) (input : IStream) :
    Option (Val β × IStream) :=
  if input.good then
    let (d, input) := input.get
    if d = some ' ' then do
      let (x, input) ← codec.extract codec.initial input
      let v ← assign v x
      some (v, input)
    else if d = some '-' then
      let (d, input) := input.get
      if d = some '-' then some (.empty, input) else some (v, input.setFail)
    else some (v, input.setFail)
  else some (v, input)

def optionalCodec (assign : Val β → Val β → Option (Val β)) : Codec (Val β) where
  insert v := (insertOptional codec v OStream.empty).written
  initial := .empty
  extract := extractOptional codec assign

section Reading

variable {codec} {assign : Val β → Val β → Option (Val β)}

@[simp] theorem insert_full (x : Val β) :
    (optionalCodec codec assign).insert (.full x) = ' ' :: codec.insert x := rfl

@[simp] theorem insert_empty : (optionalCodec codec assign).insert .empty = ['-', '-'] := rfl

theorem reads_empty (old : Val β) : Reads (optionalCodec codec assign) old .empty .empty := by
  intro rest input _ good unread
  have first : input.get = (some '-', { input with unread := '-' :: rest }) := IStream.get_cons good unread
  have second : IStream.get { input with unread := '-' :: rest } = (some '-', { input with unread := rest }) :=
    IStream.get_cons good rfl
  refine ⟨{ input with unread := rest }, ?_, rfl, IStream.good_fail good, fun _ => good⟩
  change extractOptional codec assign old input = _
  simp only [extractOptional, good, if_true, first, second, Option.some.injEq, Char.reduceEq, if_false]

theorem reads_full {old x read v : Val β} (inner : Reads codec codec.initial x read)
    (assigned : assign old read = some v) :
    Reads (optionalCodec codec assign) old (.full x) v := by
  intro rest input follows good unread
  have first : input.get = (some ' ', { input with unread := codec.insert x ++ rest }) := IStream.get_cons good unread
  obtain ⟨input', run, left, quiet, ready⟩ := inner rest { input with unread := codec.insert x ++ rest } follows good rfl
  refine ⟨input', ?_, left, quiet, ready⟩
  change extractOptional codec assign old input = _
  simp only [extractOptional, good, if_true, first, run, Option.bind_eq_bind,
    Option.bind_some, assigned]

end Reading

end BoostOptional.Stream
