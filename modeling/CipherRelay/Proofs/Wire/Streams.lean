import CipherRelay.Proofs.Bytes
import CipherRelay.Wire.Stream
/-!
Streams of frames. A decoder that is fed complete frames tells what each body holds, in order, and
is then back at the start.
-/
namespace CipherRelay.Wire

/-- A body behind the header that gives its length. -/
def framed (body : Bytes) : Bytes :=
  Bytes.bigEndian 4 body.length ++ body

theorem frame?_eq_some_iff {envelope : Envelope} {bytes : Bytes} :
    frame? envelope = some bytes ↔
      (body envelope).length ≤ bodyLimit ∧ framed (body envelope) = bytes := by
  simp [frame?, framed]

/-- No body is told as too long, since its header has been passed. -/
theorem Item.ofBody_ne_oversized (body : Bytes) : ofBody body ≠ .oversized := by
  unfold ofBody
  split <;> simp

namespace Decoder

/-- The header leads to the body that it announces. -/
theorem feed_header {length : Nat} (h : length < 256 ^ 4) :
    start.feed (Bytes.bigEndian 4 length) = enter length := by
  obtain ⟨a, b, c, d, hBytes⟩ : ∃ a b c d, Bytes.littleEndian 4 length = [a, b, c, d] :=
    ⟨_, _, _, _, rfl⟩
  have hLength : Bytes.ofLittleEndian [a, b, c, d] = length := by
    rw [← hBytes, Bytes.ofLittleEndian_littleEndian, Nat.mod_eq_of_lt h]
  rw [Bytes.bigEndian, hBytes]
  simp [feed, collect, start, next, hLength]

/-- The bytes of a body complete it with the last of them. -/
theorem feed_body (later : Nat) (seen : Bytes) {bytes : Bytes} (h : bytes.length = later + 1) :
    (body later seen).feed bytes = (start, [.ofBody (seen.reverse ++ bytes)]) := by
  induction later generalizing seen bytes with
  | zero =>
      obtain ⟨byte, rfl⟩ := List.length_eq_one_iff.mp h
      simp [next, feed, collect]
  | succ later ih =>
      obtain ⟨byte, rest, rfl⟩ := List.exists_cons_of_length_eq_add_one h
      rw [feed_cons]
      simp [next, ih (byte :: seen) (Nat.succ.inj h)]

/-- A complete frame is told as what its body holds. -/
theorem feed_framed {body : Bytes} (h : body.length ≤ bodyLimit) :
    start.feed (framed body) = (start, [.ofBody body]) := by
  rw [framed, feed_append, feed_header (by rw [bodyLimit] at h; omega)]
  cases hLength : body.length with
  | zero =>
      rw [List.length_eq_zero_iff.mp hLength]
      rfl
  | succ later =>
      rw [hLength] at h
      simp [enter, Nat.not_lt.mpr h, feed_body later [] hLength]

/-- Complete frames are told one by one. -/
theorem feed_frames {bodies : List Bytes} (h : ∀ body ∈ bodies, body.length ≤ bodyLimit) :
    start.feed (bodies.flatMap framed) = (start, bodies.map .ofBody) := by
  induction bodies with
  | nil => rfl
  | cons body rest ih =>
      obtain ⟨hBody, hRest⟩ := List.forall_mem_cons.mp h
      rw [List.flatMap_cons, feed_append, feed_framed hBody, ih hRest]
      rfl

end Decoder

end CipherRelay.Wire
