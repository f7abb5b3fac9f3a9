import CipherRelay.Wire.Frame
/-!
Frames out of a stream of bytes. A decoder takes one byte at a time and tells what that byte has
completed, so what it tells does not depend on the pieces in which the bytes arrive. A body that
holds no envelope is told and passed over; a header that announces too long a body is told as soon
as it is complete, and it ends the stream.
-/
namespace CipherRelay.Wire

/-- What a decoder tells. -/
inductive Item
  | envelope (envelope : Envelope)
  /-- A complete body that holds no envelope. -/
  | malformed
  /-- A header that announces too long a body. -/
  | oversized
  deriving DecidableEq

/-- What a complete body tells. -/
def Item.ofBody (bytes : Bytes) : Item :=
  match ofBody? bytes with
  | some found => .envelope found
  | none => .malformed

/-- What is open between two bytes. The bytes seen are held latest first. -/
inductive Decoder
  /-- A header of which some bytes have been seen. -/
  | header (seen : Bytes)
  /-- A body that is complete `later` bytes after the next one. -/
  | body (later : Nat) (seen : Bytes)
  /-- A stream that has ended. -/
  | ended
  deriving DecidableEq, Repr

namespace Decoder

/-- A decoder before the first byte. -/
def start : Decoder := .header []

/-- After a header. An empty body is complete at once. -/
def enter (length : Nat) : Decoder × List Item :=
  if bodyLimit < length then (.ended, [.oversized])
  else
    match length with
    | 0 => (start, [.ofBody []])
    | later + 1 => (.body later [], [])

/-- One byte. -/
def next (decoder : Decoder) (byte : UInt8) : Decoder × List Item :=
  match decoder with
  | .header seen =>
      if seen.length < 3 then (.header (byte :: seen), [])
      else enter (Bytes.ofLittleEndian (byte :: seen))
  | .body 0 seen => (start, [.ofBody (byte :: seen).reverse])
  | .body (later + 1) seen => (.body later (byte :: seen), [])
  | .ended => (.ended, [])

/-- Takes some bytes; `found` holds what has been told before them, latest first. -/
def collect (found : List Item) (decoder : Decoder) : Bytes → Decoder × List Item
  | [] => (decoder, found.reverse)
  | byte :: rest =>
      let (decoder, items) := decoder.next byte
      collect (items.reverse ++ found) decoder rest

/-- Takes some bytes and tells what they complete. -/
def feed (decoder : Decoder) (bytes : Bytes) : Decoder × List Item :=
  collect [] decoder bytes

/-- What has been told before the bytes comes first. -/
theorem collect_eq (found : List Item) (decoder : Decoder) (bytes : Bytes) :
    collect found decoder bytes =
      ((decoder.feed bytes).1, found.reverse ++ (decoder.feed bytes).2) := by
  unfold feed
  induction bytes generalizing found decoder with
  | nil => simp [collect]
  | cons byte rest ih =>
      simp only [collect]
      rw [ih, ih ((decoder.next byte).2.reverse ++ [])]
      simp

theorem feed_cons (decoder : Decoder) (byte : UInt8) (rest : Bytes) :
    decoder.feed (byte :: rest) =
      (((decoder.next byte).1.feed rest).1,
        (decoder.next byte).2 ++ ((decoder.next byte).1.feed rest).2) := by
  simp only [feed, collect]
  rw [collect_eq]
  simp [feed]

/-- What a decoder tells does not depend on the pieces in which the bytes arrive. -/
theorem feed_append (decoder : Decoder) (first later : Bytes) :
    decoder.feed (first ++ later) =
      (((decoder.feed first).1.feed later).1,
        (decoder.feed first).2 ++ ((decoder.feed first).1.feed later).2) := by
  induction first generalizing decoder with
  | nil => rfl
  | cons byte rest ih => rw [List.cons_append, feed_cons, ih, feed_cons, List.append_assoc]

end Decoder

end CipherRelay.Wire
