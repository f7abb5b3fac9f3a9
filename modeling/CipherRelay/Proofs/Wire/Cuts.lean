import CipherRelay.Proofs.Wire.Buffers
/-!
Streams cut into frames. Every stream is one of complete frames and of what stands behind them,
which is incomplete or begins with a header that announces too long a body. What is told of a
stream is what the bodies of its frames hold, and whether such a header comes after them.
-/
namespace CipherRelay.Wire

variable {stream rest : Bytes} {bodies : List Bytes}

/-- What a decoder tells of a stream. -/
def items (stream : Bytes) : List Item :=
  (Decoder.start.feed stream).2

/-- The message in what a decoder tells. -/
def Item.message? : Item → Option Message
  | .envelope found => some found.message
  | .malformed | .oversized => none

/-- The messages of a stream. -/
def messages (stream : Bytes) : List Message :=
  (items stream).filterMap Item.message?

/-- What is told of a longer stream is told by the decoder that has seen its front. -/
theorem items_append (first later : Bytes) :
    items (first ++ later) = items first ++ ((Decoder.start.feed first).1.feed later).2 := by
  rw [items, Decoder.feed_append, items]

/-- What has been told is not taken back when more arrives. -/
theorem items_isPrefix {first later : Bytes} (h : first <+: later) :
    items first <+: items later := by
  obtain ⟨more, rfl⟩ := h
  rw [items_append]
  exact List.prefix_append _ _

theorem messages_isPrefix {first later : Bytes} (h : first <+: later) :
    messages first <+: messages later :=
  (items_isPrefix h).filterMap Item.message?

/-- A decoder tells what a reader drains. -/
theorem items_eq_drain (stream : Bytes) : items stream = (Buffer.drain stream).2 := by
  have hDrain : Buffer.drain stream = _ := Decoder.reached_start.fill stream
  rw [hDrain, items]

/-- Bytes in front of which neither a complete frame nor too long a header stands: the header is
incomplete, or the body that it announces is. -/
def IsPartial (bytes : Bytes) : Prop :=
  bytes.length < 4 ∨ Buffer.announced bytes ≤ bodyLimit ∧ bytes.length < 4 + Buffer.announced bytes

/-- Bytes that begin with a header that announces too long a body. -/
def IsOverlong (bytes : Bytes) : Prop :=
  4 ≤ bytes.length ∧ bodyLimit < Buffer.announced bytes

/-- Bytes that are refused for their header are not waited for. -/
theorem IsOverlong.not_isPartial (h : IsOverlong rest) : ¬IsPartial rest := by
  rintro (hShort | ⟨hFits, -⟩)
  · exact absurd h.1 (by omega)
  · exact absurd h.2 (by omega)

/-- Too long a header is too long whatever follows it. -/
theorem IsOverlong.append (h : IsOverlong rest) (more : Bytes) : IsOverlong (rest ++ more) := by
  refine ⟨?_, ?_⟩
  · rw [List.length_append]
    exact Nat.le_add_right_of_le h.1
  · rw [Buffer.announced_append h.1]
    exact h.2

/-- Nothing is told of a frame before it is complete. -/
theorem items_of_isPartial (h : IsPartial rest) : items rest = [] := by
  rw [items_eq_drain, Buffer.drain_of_none (Buffer.front?_eq_none_iff.mpr h)]

/-- Too long a header is told as such and ends the stream, whatever follows it. -/
theorem items_of_isOverlong (h : IsOverlong rest) : items rest = [.oversized] := by
  rw [items_eq_drain, Buffer.drain_of_ended (Buffer.front?_eq_ended_iff.mpr ⟨h.1, h.2, rfl⟩)]

/-- A stream cut into the bodies of its frames and what stands behind the frames. -/
structure Cut (stream : Bytes) (bodies : List Bytes) (rest : Bytes) : Prop where
  bytes : stream = bodies.flatMap framed ++ rest
  fits : ∀ body ∈ bodies, body.length ≤ bodyLimit
  ends : IsPartial rest ∨ IsOverlong rest

/-- The messages in some bodies. A body that holds no envelope has none. -/
def messagesIn (bodies : List Bytes) : List Message :=
  bodies.filterMap fun body => (ofBody? body).map (·.message)

/-- Every stream can be cut. The induction takes one frame after another off it. -/
theorem exists_cut (stream : Bytes) : ∃ bodies rest, Cut stream bodies rest := by
  induction stream using Buffer.drain.induct with
  | case1 bytes hFront =>
      exact ⟨[], bytes, rfl, by simp, .inl (Buffer.front?_eq_none_iff.mp hFront)⟩
  | case2 bytes item hFront =>
      obtain ⟨hHeader, hLimit, -⟩ := Buffer.front?_eq_ended_iff.mp hFront
      exact ⟨[], bytes, rfl, by simp, .inr ⟨hHeader, hLimit⟩⟩
  | case3 bytes item rest hFront ih =>
      obtain ⟨body, hFits, rfl, -⟩ := Buffer.eq_of_front?_eq_holding hFront
      obtain ⟨bodies, left, hCut⟩ := ih
      refine ⟨body :: bodies, left, ?_, List.forall_mem_cons.mpr ⟨hFits, hCut.fits⟩, hCut.ends⟩
      rw [List.flatMap_cons, List.append_assoc, ← hCut.bytes]

/-- A body brings the message of its envelope, if it has one. -/
theorem Item.message?_ofBody (body : Bytes) :
    (ofBody body).message? = (ofBody? body).map (·.message) := by
  unfold ofBody
  split <;> simp [*, message?]

/-- The frames of a stream are told one by one, and then what stands behind them. -/
theorem Cut.items_eq (h : Cut stream bodies rest) :
    items stream = bodies.map .ofBody ++ items rest := by
  rw [h.bytes, items_append, items, Decoder.feed_frames h.fits, items]

/-- The messages of a stream are those in the bodies of its frames. -/
theorem Cut.messages_eq (h : Cut stream bodies rest) : messages stream = messagesIn bodies := by
  have hRest : (items rest).filterMap Item.message? = [] := by
    rcases h.ends with hPartial | hOverlong
    · rw [items_of_isPartial hPartial, List.filterMap_nil]
    · rw [items_of_isOverlong hOverlong]
      rfl
  rw [messages, h.items_eq, List.filterMap_append, hRest, List.append_nil, List.filterMap_map,
    messagesIn]
  exact congrArg (List.filterMap · bodies) (funext Item.message?_ofBody)

/-- A decoder tells of too long a header exactly when one stands behind the complete frames, since
no frame in front of it is told so. -/
theorem Cut.oversized_iff (h : Cut stream bodies rest) :
    .oversized ∈ items stream ↔ IsOverlong rest := by
  have hBodies : Item.oversized ∉ bodies.map .ofBody := by
    rw [List.mem_map]
    rintro ⟨body, -, hBody⟩
    exact Item.ofBody_ne_oversized body hBody
  rw [h.items_eq, List.mem_append, or_iff_right hBodies]
  rcases h.ends with hPartial | hOverlong
  · have hNot : ¬IsOverlong rest := fun hOverlong => hOverlong.not_isPartial hPartial
    simp [items_of_isPartial hPartial, hNot]
  · simp [items_of_isOverlong hOverlong, hOverlong]

/-- Nothing is told behind too long a header. -/
theorem items_append_of_oversized (h : .oversized ∈ items stream) (more : Bytes) :
    items (stream ++ more) = items stream := by
  obtain ⟨bodies, rest, hCut⟩ := exists_cut stream
  have hRest : IsOverlong rest := hCut.oversized_iff.mp h
  have hMore : Cut (stream ++ more) bodies (rest ++ more) :=
    ⟨by rw [hCut.bytes, List.append_assoc], hCut.fits, .inr (hRest.append more)⟩
  rw [hMore.items_eq, hCut.items_eq, items_of_isOverlong hRest,
    items_of_isOverlong (hRest.append more)]

end CipherRelay.Wire
