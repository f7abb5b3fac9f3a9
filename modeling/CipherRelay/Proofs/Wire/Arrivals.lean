import CipherRelay.Proofs.Wire.Bodies
import CipherRelay.Proofs.Wire.Buffers
/-!
What arrives. An envelope that is told of a stream has come in a body within the limit, wherever in
the stream its frame stands and whatever else the stream holds. So it has a frame itself.
-/
namespace CipherRelay.Wire

/-- A body within the limit tells envelopes that can arrive. -/
theorem arrives_of_ofBody {bytes : Bytes} {envelope : Envelope} (hFits : bytes.length ≤ bodyLimit)
    (hTold : .envelope envelope = Item.ofBody bytes) : Arrives envelope := by
  unfold Item.ofBody at hTold
  split at hTold
  case h_1 found hFound =>
    obtain rfl := Item.envelope.inj hTold
    exact ⟨bytes, hFits, hFound⟩
  case h_2 => cases hTold

namespace Decoder

variable {decoder : Decoder}

/-- A header that completes a frame by itself, that of an empty body, tells only what arrives. -/
theorem arrives_of_enter {length : Nat} {envelope : Envelope}
    (hTold : .envelope envelope ∈ (enter length).2) : Arrives envelope := by
  unfold enter at hTold
  split at hTold
  · simp at hTold
  · cases length with
    | zero => exact arrives_of_ofBody (Nat.zero_le _) (List.mem_singleton.mp hTold)
    | succ later => cases hTold

/-- One byte. -/
theorem Reached.arrives_of_next (h : decoder.Reached) {byte : UInt8} {envelope : Envelope}
    (hTold : .envelope envelope ∈ (decoder.next byte).2) : Arrives envelope := by
  cases decoder with
  | header seen =>
      simp only [Decoder.next] at hTold
      split at hTold
      · cases hTold
      · exact arrives_of_enter hTold
  | body later seen =>
      cases later with
      | zero =>
          refine arrives_of_ofBody ?_ (List.mem_singleton.mp hTold)
          simpa [Reached] using h
      | succ later => cases hTold
  | ended => cases hTold

/-- Any bytes. -/
theorem Reached.arrives (h : decoder.Reached) {bytes : Bytes} {envelope : Envelope}
    (hTold : .envelope envelope ∈ (decoder.feed bytes).2) : Arrives envelope := by
  induction bytes generalizing decoder with
  | nil => cases hTold
  | cons byte rest ih =>
      rw [feed_cons] at hTold
      rcases List.mem_append.mp hTold with hFirst | hRest
      · exact h.arrives_of_next hFirst
      · exact ih (h.next byte) hRest

end Decoder

/-- What can arrive is what is told of some stream. -/
theorem arrives_iff_told {envelope : Envelope} :
    Arrives envelope ↔ ∃ stream, .envelope envelope ∈ (Decoder.start.feed stream).2 := by
  constructor
  · intro h
    have hFits := arrives_iff.mp h
    refine ⟨framed (body envelope), ?_⟩
    rw [Decoder.feed_framed hFits, Item.ofBody, ofBody?_body hFits]
    exact List.mem_singleton_self _
  · rintro ⟨stream, hTold⟩
    exact Decoder.reached_start.arrives hTold

end CipherRelay.Wire
