import CipherRelay.Proofs.Wire.Bodies
import CipherRelay.Proofs.Wire.Buffers
/-!
Streams of frames in pieces. A stream arrives in pieces of any length, and a piece may end inside a
header, inside a body or behind several frames. Whichever the pieces are, each frame is told once
and in its place, a frame that holds no envelope among them.
-/
namespace CipherRelay.Wire

/-- Feeds pieces to a decoder one after another, and collects all that they complete. -/
def Decoder.feedAll (decoder : Decoder) : List Bytes → Decoder × List Item
  | [] => (decoder, [])
  | chunk :: rest =>
      (((decoder.feed chunk).1.feedAll rest).1,
        (decoder.feed chunk).2 ++ ((decoder.feed chunk).1.feedAll rest).2)

/-- Fills a reader with pieces one after another. It takes frames off after each of them. -/
def Buffer.fillAll (buffer : Buffer) : List Bytes → Buffer × List Item
  | [] => (buffer, [])
  | chunk :: rest =>
      (((buffer.fill chunk).1.fillAll rest).1,
        (buffer.fill chunk).2 ++ ((buffer.fill chunk).1.fillAll rest).2)

/-- What a decoder tells of pieces it tells of them as a whole. -/
theorem Decoder.feedAll_eq (decoder : Decoder) (chunks : List Bytes) :
    decoder.feedAll chunks = decoder.feed chunks.flatten := by
  induction chunks generalizing decoder with
  | nil => rfl
  | cons chunk rest ih => rw [feedAll, ih, List.flatten_cons, feed_append]

/-- A reader and a decoder tell the same about any arrivals. -/
theorem Decoder.Reached.fillAll {decoder : Decoder} (h : decoder.Reached) (chunks : List Bytes) :
    decoder.held.fillAll chunks =
      ((decoder.feedAll chunks).1.held, (decoder.feedAll chunks).2) := by
  induction chunks generalizing decoder with
  | nil => rfl
  | cons chunk rest ih => rw [Buffer.fillAll, h.fill, ih (h.feed chunk), feedAll]

/-- A frame of a stream. -/
inductive Frame
  /-- The frame of an envelope. -/
  | filled (envelope : Envelope) (bytes : Bytes) (hFrame : frame? envelope = some bytes)
  /-- A frame whose body is within the limit, but has the body of no envelope in front. -/
  | hollow (body : Bytes) (hFits : body.length ≤ bodyLimit)
      (hHollow : ∀ envelope, ¬Wire.body envelope <+: body)

namespace Frame

/-- The bytes of a frame. -/
def bytes : Frame → Bytes
  | .filled _ bytes _ => bytes
  | .hollow body _ _ => framed body

/-- What a frame is to be told as. -/
def item : Frame → Item
  | .filled envelope _ _ => .envelope envelope
  | .hollow _ _ _ => .malformed

/-- A frame is a body within the limit behind its header, and told as what the body holds. -/
theorem exists_body (frame : Frame) :
    ∃ body : Bytes, body.length ≤ bodyLimit ∧ frame.bytes = framed body ∧
      frame.item = .ofBody body := by
  cases frame with
  | filled envelope bytes hFrame =>
      obtain ⟨hFits, rfl⟩ := frame?_eq_some_iff.mp hFrame
      refine ⟨body envelope, hFits, rfl, ?_⟩
      rw [Item.ofBody, ofBody?_body hFits, item]
  | hollow body hFits hHollow =>
      have hNone : ofBody? body = none := by
        rw [Option.eq_none_iff_forall_ne_some]
        exact fun envelope hSome => hHollow envelope (ofBody?_eq_some_iff.mp hSome).2
      refine ⟨body, hFits, rfl, ?_⟩
      rw [Item.ofBody, hNone, item]

/-- Frames one after another are told one by one. -/
theorem feed_start (frames : List Frame) :
    Decoder.start.feed (frames.flatMap bytes) = (.start, frames.map item) := by
  induction frames with
  | nil => rfl
  | cons frame rest ih =>
      obtain ⟨body, hFits, hBytes, hItem⟩ := frame.exists_body
      rw [List.flatMap_cons, Decoder.feed_append, hBytes, Decoder.feed_framed hFits, ih,
        List.map_cons, hItem]
      rfl

end Frame

/-- Streams survive every fragmentation. Just the envelopes whose body is within the limit have a
frame. Frames that arrive in any pieces are told one by one as what they hold, and nothing is left
of them, be it with a decoder that takes one byte at a time or with a reader that keeps what has
arrived. Of any stream whatsoever both tell what is drained from it as a whole, up to the first
header that announces too long a body. -/
theorem streams_survive_fragments :
    (∀ envelope, (∃ bytes, frame? envelope = some bytes) ↔
      (body envelope).length ≤ bodyLimit) ∧
    (∀ (frames : List Frame) (chunks : List Bytes),
      chunks.flatten = frames.flatMap Frame.bytes →
        Decoder.start.feedAll chunks = (.start, frames.map Frame.item) ∧
        (Buffer.holding []).fillAll chunks = (.holding [], frames.map Frame.item)) ∧
    (∀ chunks : List Bytes,
      (Decoder.start.feedAll chunks).2 = (Buffer.drain chunks.flatten).2 ∧
      (Buffer.holding []).fillAll chunks = Buffer.drain chunks.flatten) := by
  have hStart : Decoder.start.Reached := by simp [Decoder.start, Decoder.Reached]
  have hFill (chunks : List Bytes) : (Buffer.holding []).fillAll chunks =
      ((Decoder.start.feedAll chunks).1.held, (Decoder.start.feedAll chunks).2) :=
    hStart.fillAll chunks
  have hDrain (bytes : Bytes) : Buffer.drain bytes =
      ((Decoder.start.feed bytes).1.held, (Decoder.start.feed bytes).2) :=
    hStart.fill bytes
  refine ⟨fun envelope => ?_, fun frames chunks hChunks => ?_, fun chunks => ?_⟩
  · simp [frame?_eq_some_iff]
  · rw [hFill, Decoder.feedAll_eq, hChunks, Frame.feed_start]
    exact ⟨rfl, rfl⟩
  · rw [hFill, hDrain, Decoder.feedAll_eq]
    exact ⟨rfl, rfl⟩

/-- A frame with an envelope and a frame with two bytes that are none. -/
def letterAndNoise : List Frame :=
  let letter : Envelope := ⟨⟨List.replicate 32 9, rfl⟩, .send .ct2 [7]⟩
  [.filled letter (framed (body letter)) (frame?_eq_some_iff.mpr ⟨by decide, rfl⟩),
    .hollow [255, 1] (by decide) fun envelope hFront => by
      have hShort := hFront.length_le
      rw [length_body] at hShort
      simp at hShort
      omega]

/-- They arrive in four pieces, the first of them empty, with cuts in both headers. -/
def letterAndNoisePieces : List Bytes :=
  let wire := letterAndNoise.flatMap Frame.bytes
  [[], wire.take 2, (wire.drop 2).take 52, wire.drop 54]

theorem letter_and_noise_in_pieces :
    letterAndNoisePieces.flatten = letterAndNoise.flatMap Frame.bytes ∧
    Decoder.start.feedAll letterAndNoisePieces = (.start, letterAndNoise.map Frame.item) := by
  have hPieces : letterAndNoisePieces.flatten = letterAndNoise.flatMap Frame.bytes := by decide
  exact ⟨hPieces, (streams_survive_fragments.2.1 letterAndNoise _ hPieces).1⟩

end CipherRelay.Wire
