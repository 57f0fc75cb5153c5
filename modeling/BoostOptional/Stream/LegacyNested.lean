import BoostOptional.Stream.Sequence

/-!
Optionals of optionals in a stream, in the legacy implementation. `v = move_(x)` makes an `x` that is
itself an optional the value of `v`, so every layer is read back.
-/

namespace BoostOptional.Stream
open Conversion

variable {β : Type}

/-! ### Codecs of every depth -/

def legacyCodecOf (prims : Nat → TypeOps β) (codecs : Nat → Codec (Val β)) : Ty → Codec (Val β)
  | .prim k => codecs k
  | .opt T => optionalCodec (legacyCodecOf prims codecs T) (Legacy.assign T (Legacy.typeOps prims T) T .rvalue)

section Codecs

variable {prims : Nat → TypeOps β} (movable : ∀ k, Movable k (prims k)) {codecs : Nat → Codec (Val β)}

include movable in
theorem legacy_layer {T : Ty} (inner : ∀ x, x.HasType T →
      ReadsBack (legacyCodecOf prims codecs T) (legacyCodecOf prims codecs T).initial x)
    {old w : Val β} (oldTyped : old.HasType (.opt T)) (typed : w.HasType (.opt T)) :
    ReadsBack (legacyCodecOf prims codecs (.opt T)) old w := by
  cases w with
  | base b => cases typed
  | empty => exact reads_empty old
  | full x => exact reads_full (inner x typed) (Legacy.assign_own_moved movable oldTyped typed)

variable (reads : ∀ k b, ReadsBack (codecs k) (codecs k).initial (.base b))

include movable reads

theorem legacy_readsBack {T : Ty} {x : Val β} (typed : x.HasType T) :
    ReadsBack (legacyCodecOf prims codecs T) (legacyCodecOf prims codecs T).initial x := by
  induction T generalizing x with
  | prim k =>
    obtain ⟨b, rfl⟩ := typed.base
    exact reads k b
  | opt V ih =>
    have fresh : (.empty : Val β).HasType (.opt V) := trivial
    exact legacy_layer movable (fun x => ih (x := x)) fresh typed

/-- Optionals of any depth, written one after another and read back over any others. -/
theorem legacy_list_roundTrip (T : Ty) (vs olds : List (Val β)) (typed : ∀ v ∈ vs, v.HasType (.opt T))
    (oldTyped : ∀ v ∈ olds, v.HasType (.opt T)) (length : olds.length = vs.length) {rest : List Char}
    (follows : Follows rest) {input : IStream} (good : input.good = true)
    (unread : input.unread = (writeAll (legacyCodecOf prims codecs T) vs).written ++ rest) (n : Nat) :
    ∃ input', readAll (legacyCodecOf prims codecs T) (Legacy.assign T (Legacy.typeOps prims T) T .rvalue)
        (olds.take n) input = some (vs.take n, input') ∧
      input'.unread = (writeAll (legacyCodecOf prims codecs T) (vs.drop n)).written ++ rest ∧
      input'.fail = false ∧ (input'.unread ≠ [] → input'.good = true) := by
  have layer : ∀ old v : Val β, old.HasType (.opt T) → v.HasType (.opt T) →
      ReadsBack (legacyCodecOf prims codecs (.opt T)) old v := by
    intro old v oldTyped typed
    exact legacy_layer movable (fun x => legacy_readsBack movable reads (x := x)) oldTyped typed
  exact readAll_take layer typed oldTyped length follows good unread n

end Codecs

/-- The `optional<optional<bool>>` that holds an empty optional, between two others. -/
theorem legacy_list_roundTrip_bool :
    ∃ input', readAll (legacyCodecOf (fun _ => arithmetic) (fun _ => boolCodec) (.opt (.prim 0)))
        (Legacy.assign (.opt (.prim 0)) (Legacy.typeOps (fun _ => arithmetic) (.opt (.prim 0))) (.opt (.prim 0))
          .rvalue)
        [.empty, .full (.full (.base true)), .empty] ⟨"-- --  1".toList, false, false, false⟩ =
          some ([.empty, .full .empty, .full (.full (.base true))], input') ∧
      input'.unread = [] := by
  have reads : ∀ (k : Nat) b, ReadsBack ((fun _ => boolCodec) k) ((fun _ : Nat => boolCodec) k).initial (.base b) :=
    fun _ => boolCodec_readsBack _
  have good : IStream.good ⟨"-- --  1".toList, false, false, false⟩ = true := rfl
  obtain ⟨input', run, left, _⟩ := legacy_list_roundTrip arithmetic_movable reads (.opt (.prim 0))
    [.empty, .full .empty, .full (.full (.base true))] [.empty, .full (.full (.base true)), .empty]
    (by simp [Val.HasType]) (by simp [Val.HasType]) rfl (.inl rfl) good (by decide) 3
  exact ⟨input', run, left⟩

end BoostOptional.Stream
