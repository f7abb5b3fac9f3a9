import CipherRelay.Proofs.Wire.Streams
/-!
A reader that keeps what has arrived. It puts each arrival behind the bytes that it holds and takes
complete frames off their front, without remembering how far it had come. It tells what the decoder
tells that takes one byte at a time, and what it tells depends on the bytes alone.
-/
namespace CipherRelay.Wire

/-- What a reader holds between two arrivals. -/
inductive Buffer
  /-- Bytes that no complete frame stands in front of. -/
  | holding (bytes : Bytes)
  /-- A stream that has ended. -/
  | ended
  deriving DecidableEq, Repr

namespace Buffer

/-- The length that the header in front of some bytes gives. -/
def announced (bytes : Bytes) : Nat :=
  Bytes.ofBigEndian (bytes.take 4)

/-- Takes the first frame off some bytes: what it tells, and what is left. There is none as long as
its header or its body is incomplete. -/
def front? (bytes : Bytes) : Option (Item × Buffer) :=
  if bytes.length < 4 then none
  else if bodyLimit < announced bytes then some (.oversized, .ended)
  else if bytes.length < 4 + announced bytes then none
  else some (.ofBody ((bytes.drop 4).take (announced bytes)),
    .holding ((bytes.drop 4).drop (announced bytes)))

variable {bytes body rest : Bytes} {item : Item}

theorem length_framed : (framed body).length = 4 + body.length := by
  rw [framed, List.length_append, Bytes.length_bigEndian]

/-- A header is read whatever follows it. -/
theorem announced_append (h : 4 ≤ bytes.length) (more : Bytes) :
    announced (bytes ++ more) = announced bytes := by
  rw [announced, List.take_append_of_le_length h, announced]

theorem announced_bigEndian {length : Nat} (h : length ≤ bodyLimit) (more : Bytes) :
    announced (Bytes.bigEndian 4 length ++ more) = length := by
  rw [announced, List.take_left' (Bytes.length_bigEndian 4 length), Bytes.ofBigEndian_bigEndian,
    Nat.mod_eq_of_lt (by rw [bodyLimit] at h; omega)]

/-- Bytes as long as their header says are a frame and what follows it. -/
theorem eq_framed_append (hHeader : 4 ≤ bytes.length)
    (hBody : 4 + announced bytes ≤ bytes.length) :
    ∃ body rest, body.length = announced bytes ∧ bytes = framed body ++ rest := by
  have hFour : Bytes.bigEndian 4 (announced bytes) = bytes.take 4 := by
    have hBack := Bytes.bigEndian_ofBigEndian (bytes.take 4)
    rwa [List.length_take_of_le hHeader] at hBack
  have hLength : ((bytes.drop 4).take (announced bytes)).length = announced bytes := by
    rw [List.length_take, List.length_drop]
    omega
  refine ⟨_, (bytes.drop 4).drop (announced bytes), hLength, ?_⟩
  rw [framed, hLength, hFour, List.append_assoc, List.take_append_drop, List.take_append_drop]

/-- There is no first frame exactly while its header or its body is incomplete. -/
theorem front?_eq_none_iff :
    front? bytes = none ↔
      bytes.length < 4 ∨ announced bytes ≤ bodyLimit ∧ bytes.length < 4 + announced bytes := by
  rw [front?]
  split
  · simp [*]
  · split
    · simp; omega
    · split <;> simp <;> omega

/-- A header that announces too long a body ends the stream. -/
theorem front?_eq_ended_iff :
    front? bytes = some (item, .ended) ↔
      4 ≤ bytes.length ∧ bodyLimit < announced bytes ∧ item = .oversized := by
  rw [front?, eq_comm (a := item)]
  split
  · simp; omega
  · split
    · simp [*]; omega
    · split <;> simp <;> omega

/-- A complete frame is taken off. -/
theorem front?_framed_append (h : body.length ≤ bodyLimit) (rest : Bytes) :
    front? (framed body ++ rest) = some (.ofBody body, .holding rest) := by
  have hAnnounced : announced (framed body ++ rest) = body.length := by
    rw [framed, List.append_assoc, announced_bigEndian h]
  have hDrop : (framed body ++ rest).drop 4 = body ++ rest := by
    rw [framed, List.append_assoc, List.drop_left' (Bytes.length_bigEndian 4 body.length)]
  rw [front?, hAnnounced, hDrop, List.length_append, length_framed, if_neg (by omega),
    if_neg (by omega), if_neg (by omega), List.take_left, List.drop_left]

/-- What is left after a frame was behind it. -/
theorem eq_of_front?_eq_holding (h : front? bytes = some (item, .holding rest)) :
    ∃ body : Bytes, body.length ≤ bodyLimit ∧ bytes = framed body ++ rest ∧
      item = .ofBody body := by
  have hSome : front? bytes ≠ none := by simp [h]
  have hOpen : front? bytes ≠ some (.oversized, .ended) := by simp [h]
  rw [Ne, front?_eq_none_iff] at hSome
  rw [Ne, front?_eq_ended_iff] at hOpen
  have hLimit : announced bytes ≤ bodyLimit := by
    simp only [and_true] at hOpen
    omega
  obtain ⟨body, later, hLength, rfl⟩ := eq_framed_append (show 4 ≤ bytes.length by omega) (by omega)
  have hFits : body.length ≤ bodyLimit := by omega
  rw [front?_framed_append hFits, Option.some.injEq, Prod.mk.injEq, holding.injEq] at h
  obtain ⟨rfl, rfl⟩ := h
  exact ⟨body, hFits, rfl, rfl⟩

/-- A frame that is taken off leaves fewer bytes. -/
theorem length_lt_of_front? (h : front? bytes = some (item, .holding rest)) :
    rest.length < bytes.length := by
  obtain ⟨body, -, rfl, -⟩ := eq_of_front?_eq_holding h
  rw [List.length_append, length_framed]
  omega

/-- Takes every complete frame off some bytes. -/
def drain (bytes : Bytes) : Buffer × List Item :=
  match _h : front? bytes with
  | none => (.holding bytes, [])
  | some (item, .ended) => (.ended, [item])
  | some (item, .holding rest) => ((drain rest).1, item :: (drain rest).2)
termination_by bytes.length
decreasing_by all_goals exact length_lt_of_front? _h

/-- Without a complete frame all bytes are held. -/
theorem drain_of_none (h : front? bytes = none) : drain bytes = (.holding bytes, []) := by
  rw [drain]
  split <;> simp_all

/-- A refused header is the last thing that is told. -/
theorem drain_of_ended (h : front? bytes = some (item, .ended)) :
    drain bytes = (.ended, [item]) := by
  rw [drain]
  split <;> simp_all

theorem drain_of_holding (h : front? bytes = some (item, .holding rest)) :
    drain bytes = ((drain rest).1, item :: (drain rest).2) := by
  rw [drain]
  split <;> simp_all

/-- Puts an arrival behind the bytes of a reader and takes the frames off their front. -/
def fill (buffer : Buffer) (chunk : Bytes) : Buffer × List Item :=
  match buffer with
  | .holding held => drain (held ++ chunk)
  | .ended => (.ended, [])

/-- What is drained at once is drained in two steps. The induction is on the frames of the first
part: what follows it neither changes them nor completes one before them. -/
theorem drain_append (bytes more : Bytes) :
    drain (bytes ++ more) =
      (((drain bytes).1.fill more).1, (drain bytes).2 ++ ((drain bytes).1.fill more).2) := by
  induction bytes using drain.induct with
  | case1 bytes hFront =>
      rw [drain_of_none hFront]
      rfl
  | case2 bytes item hFront =>
      have hMore : front? (bytes ++ more) = some (item, .ended) := by
        obtain ⟨hHeader, hLimit, rfl⟩ := front?_eq_ended_iff.mp hFront
        refine front?_eq_ended_iff.mpr ⟨?_, ?_, rfl⟩
        · rw [List.length_append]
          omega
        · rwa [announced_append hHeader]
      rw [drain_of_ended hFront, drain_of_ended hMore]
      rfl
  | case3 bytes item rest hFront ih =>
      have hMore : front? (bytes ++ more) = some (item, .holding (rest ++ more)) := by
        obtain ⟨body, hFits, rfl, rfl⟩ := eq_of_front?_eq_holding hFront
        rw [List.append_assoc, front?_framed_append hFits]
      rw [drain_of_holding hFront, drain_of_holding hMore, ih]
      rfl

/-- So what two arrivals complete is what they complete together. -/
theorem fill_append (buffer : Buffer) (first later : Bytes) :
    buffer.fill (first ++ later) =
      (((buffer.fill first).1.fill later).1,
        (buffer.fill first).2 ++ ((buffer.fill first).1.fill later).2) := by
  cases buffer with
  | holding held =>
      simp only [fill]
      rw [← List.append_assoc, drain_append]
      rfl
  | ended => rfl

end Buffer

namespace Decoder

open Buffer

/-- What a reader holds that has seen the same bytes: the open header, or the header of the open
body and what has been seen of the body. -/
def held : Decoder → Buffer
  | .header seen => .holding seen.reverse
  | .body later seen => .holding (Bytes.bigEndian 4 (seen.length + later + 1) ++ seen.reverse)
  | .ended => .ended

/-- Whether bytes lead here: an open header is incomplete, and an open body is within the limit. -/
def Reached : Decoder → Prop
  | .header seen => seen.length < 4
  | .body later seen => seen.length + later + 1 ≤ bodyLimit
  | .ended => True

variable {decoder : Decoder}

/-- Between two arrivals no complete frame is held. -/
theorem Reached.fill_nil (h : decoder.Reached) : decoder.held.fill [] = (decoder.held, []) := by
  cases decoder with
  | header seen =>
      rw [held, fill, List.append_nil, drain_of_none]
      exact front?_eq_none_iff.mpr (.inl (by simpa [Reached] using h))
  | body later seen =>
      rw [held, fill, List.append_nil, drain_of_none]
      rw [front?_eq_none_iff, announced_bigEndian h, List.length_append, Bytes.length_bigEndian,
        List.length_reverse]
      exact .inr ⟨h, by omega⟩
  | ended => rfl

theorem reached_start : start.Reached := by
  simp [start, Reached]

theorem reached_enter (length : Nat) : (enter length).1.Reached := by
  unfold enter
  split
  · trivial
  · cases length with
    | zero => simp [Reached, start]
    | succ later =>
        simp only [Reached, List.length_nil]
        omega

/-- A byte leads from one state that can be reached to another. -/
theorem Reached.next (h : decoder.Reached) (byte : UInt8) : (decoder.next byte).1.Reached := by
  cases decoder with
  | header seen =>
      simp only [Decoder.next]
      split
      · simp only [Reached, List.length_cons]
        omega
      · exact reached_enter _
  | body later seen =>
      cases later with
      | zero => simp [Decoder.next, Reached, start]
      | succ later =>
          simp only [Reached, Decoder.next, List.length_cons] at h ⊢
          omega
  | ended => trivial

/-- A complete header is told, and held, as the decoder has it. -/
theorem drain_header {header : Bytes} (h : header.length = 4) :
    drain header =
      ((enter (Bytes.ofBigEndian header)).1.held, (enter (Bytes.ofBigEndian header)).2) := by
  have hAnnounced : announced header = Bytes.ofBigEndian header := by
    rw [announced, ← h, List.take_length]
  have hBack : Bytes.bigEndian 4 (Bytes.ofBigEndian header) = header := by
    rw [← h, Bytes.bigEndian_ofBigEndian]
  unfold enter
  split
  case isTrue hLimit =>
    exact drain_of_ended (front?_eq_ended_iff.mpr ⟨by omega, by omega, rfl⟩)
  case isFalse hLimit =>
    split
    case h_1 hZero =>
      have hFront : front? header = some (.ofBody [], .holding []) := by
        rw [← hBack, hZero]
        exact front?_framed_append (show ([] : Bytes).length ≤ bodyLimit from Nat.zero_le _) []
      rw [drain_of_holding hFront, drain_of_none (front?_eq_none_iff.mpr (.inl (by simp)))]
      rfl
    case h_2 later hLater =>
      have hFront : front? header = none := front?_eq_none_iff.mpr (.inr ⟨by omega, by omega⟩)
      have hHeader : Bytes.bigEndian 4 (0 + later + 1) = header := by
        rw [Nat.zero_add, ← Nat.succ_eq_add_one, ← hLater, hBack]
      rw [drain_of_none hFront, held, List.length_nil, hHeader, List.reverse_nil, List.append_nil]

/-- A reader and a decoder tell the same about one byte. -/
theorem Reached.fill_byte (h : decoder.Reached) (byte : UInt8) :
    decoder.held.fill [byte] = ((decoder.next byte).1.held, (decoder.next byte).2) := by
  cases decoder with
  | header seen =>
      have hHeader : seen.reverse ++ [byte] = (byte :: seen).reverse := by simp
      rw [held, fill, hHeader]
      by_cases hShort : seen.length < 3
      · rw [drain_of_none (front?_eq_none_iff.mpr (.inl (by simp; omega)))]
        simp [Decoder.next, hShort, held]
      · have hFour : (byte :: seen).reverse.length = 4 := by
          simp only [Reached, List.length_reverse, List.length_cons] at h ⊢
          omega
        rw [drain_header hFour]
        simp [Decoder.next, hShort, Bytes.ofBigEndian]
  | body later seen =>
      cases later with
      | zero =>
          have hBody : (byte :: seen).reverse.length = seen.length + 0 + 1 := by simp
          have hFrame : Bytes.bigEndian 4 (seen.length + 0 + 1) ++ seen.reverse ++ [byte] =
              framed (byte :: seen).reverse ++ [] := by
            rw [framed, hBody]
            simp
          have hFits : (byte :: seen).reverse.length ≤ bodyLimit := by
            rw [hBody]
            exact h
          rw [held, fill, hFrame, drain_of_holding (front?_framed_append hFits []),
            drain_of_none (front?_eq_none_iff.mpr (.inl (by simp)))]
          rfl
      | succ later =>
          have hLength : seen.length + (later + 1) + 1 = (byte :: seen).length + later + 1 := by
            rw [List.length_cons]
            omega
          rw [held, fill, hLength, List.append_assoc, List.reverse_cons.symm]
          have hNil := (h.next byte).fill_nil
          rwa [Decoder.next, held, Buffer.fill, List.append_nil] at hNil
  | ended => rfl

/-- A reader and a decoder tell the same about any bytes, and hold the same after them. -/
theorem Reached.fill (h : decoder.Reached) (bytes : Bytes) :
    decoder.held.fill bytes = ((decoder.feed bytes).1.held, (decoder.feed bytes).2) := by
  induction bytes generalizing decoder with
  | nil => exact h.fill_nil
  | cons byte rest ih =>
      have hSplit : byte :: rest = [byte] ++ rest := rfl
      rw [hSplit, fill_append, h.fill_byte, ih (h.next byte), ← hSplit, feed_cons]

theorem Reached.feed (h : decoder.Reached) (bytes : Bytes) : (decoder.feed bytes).1.Reached := by
  induction bytes generalizing decoder with
  | nil => exact h
  | cons byte rest ih =>
      rw [feed_cons]
      exact ih (h.next byte)

end Decoder

end CipherRelay.Wire
