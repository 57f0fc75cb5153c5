import Mathlib.Tactic.Common

/-!
Character streams, as far as `optional_io.hpp` uses them. No width is set and no exception mask.
-/

namespace BoostOptional.Stream

structure OStream where
  written : List Char
  good : Bool
  deriving DecidableEq, Repr

namespace OStream

def empty : OStream := ⟨[], true⟩

/-- `out << s` -/
def write (out : OStream) (s : List Char) : OStream :=
  if out.good then { out with written := out.written ++ s } else out

end OStream

/-- The text that has not been read, and `eofbit`, `failbit` and `badbit`. -/
structure IStream where
  unread : List Char
  eof : Bool
  fail : Bool
  bad : Bool
  deriving DecidableEq, Repr

namespace IStream

def good (input : IStream) : Bool := !input.eof && !input.fail && !input.bad

/-- `in.setstate(std::ios::failbit)` -/
def setFail (input : IStream) : IStream := { input with fail := true }

/-- `in.get()`, where `none` is the end-of-file value. Nothing is skipped. -/
def get (input : IStream) : Option Char × IStream :=
  if input.good then
    match input.unread with
    | c :: rest => (some c, { input with unread := rest })
    | [] => (none, { input with eof := true, fail := true })
  else (none, input.setFail)

theorem get_cons {input : IStream} {c : Char} {rest : List Char} (good : input.good = true)
    (unread : input.unread = c :: rest) :
    input.get = (some c, { input with unread := rest }) := by
  simp only [get, good, if_true, unread]

theorem good_with_unread (input : IStream) (rest : List Char) :
    ({ input with unread := rest } : IStream).good = input.good := rfl

theorem good_fail {input : IStream} (good : input.good = true) : input.fail = false := by
  simp only [IStream.good, Bool.and_eq_true, Bool.not_eq_true'] at good
  exact good.1.2

end IStream

/-! ### Types with an inserter and an extractor -/

/-- `insert` is the text that `out << v` writes to a good stream, `initial` what `T x;` leaves in `x`,
and `extract` what `in >> x` does. `none` is an ill-formed program. -/
structure Codec (γ : Type) where
  insert : γ → List Char
  initial : γ
  extract : γ → IStream → Option (γ × IStream)

variable {γ : Type}

/-- What may come after a value. -/
def Follows (rest : List Char) : Prop := rest = [] ∨ ∃ tail, rest = ' ' :: tail ∨ rest = '-' :: tail

/-- From the text of `v`, whatever follows it, `old` becomes `read`. Exactly that text is consumed,
`failbit` is not set, and the stream stays good when there is more. -/
def Reads (codec : Codec γ) (old v read : γ) : Prop :=
  ∀ (rest : List Char) (input : IStream), Follows rest → input.good = true →
    input.unread = codec.insert v ++ rest →
    ∃ input', codec.extract old input = some (read, input') ∧ input'.unread = rest ∧
    input'.fail = false ∧
      (rest ≠ [] → input'.good = true)

/-- Extracting from the inserted text gives back the same value. -/
def ReadsBack (codec : Codec γ) (old v : γ) : Prop := Reads codec old v v

theorem Reads.unique {codec : Codec γ} {old v read read' : γ} (first : Reads codec old v read)
    (second : Reads codec old v read') : read = read' := by
  obtain ⟨_, run, _⟩ :=
    first [] ⟨codec.insert v, false, false, false⟩ (.inl rfl) rfl (List.append_nil _).symm
  obtain ⟨_, run', _⟩ :=
    second [] ⟨codec.insert v, false, false, false⟩ (.inl rfl) rfl (List.append_nil _).symm
  exact congrArg Prod.fst (Option.some.inj (run.symm.trans run'))

end BoostOptional.Stream
