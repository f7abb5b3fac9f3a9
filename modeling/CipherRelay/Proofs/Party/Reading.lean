import CipherRelay.Party.Link
import CipherRelay.Proofs.Wire.Cuts
/-!
What a reader and a party do to the queue that they share. However arrivals, reader and calls take
turns, the messages that calls have returned and those that are queued are together the messages of
what has been read, and a connection is closed only where no message can follow.
-/
namespace CipherRelay.Party

namespace Connection

variable (connection : Connection)

/-- Messages are queued one behind the other, and only too long a header closes a connection. -/
theorem foldl_accept (items : List Wire.Item) :
    (items.foldl accept connection).decoder = connection.decoder ∧
    (items.foldl accept connection).queue =
      connection.queue ++ items.filterMap Wire.Item.message? ∧
    ((items.foldl accept connection).isOpen = true ↔
      connection.isOpen = true ∧ .oversized ∉ items) := by
  induction items generalizing connection with
  | nil => simp
  | cons item rest ih =>
      obtain ⟨hDecoder, hQueue, hOpen⟩ := ih (connection.accept item)
      rw [List.foldl_cons, hDecoder, hQueue, hOpen]
      cases item <;> simp [accept, List.filterMap_cons, Wire.Item.message?]

/-- What arriving bytes do to a connection. -/
theorem arrive_fields (bytes : Bytes) :
    (connection.arrive bytes).decoder = (connection.decoder.feed bytes).1 ∧
    (connection.arrive bytes).queue =
      connection.queue ++ (connection.decoder.feed bytes).2.filterMap Wire.Item.message? ∧
    ((connection.arrive bytes).isOpen = true ↔
      connection.isOpen = true ∧ .oversized ∉ (connection.decoder.feed bytes).2) :=
  foldl_accept { connection with decoder := (connection.decoder.feed bytes).1 } _

end Connection

namespace Link

variable {link : Link}

/-- The message that a call has returned. -/
def message? : Except PartyError (Option Message) → Option Message
  | .ok found => found
  | .error _ => none

/-- The messages that the party's calls have returned. -/
def told (link : Link) : List Message :=
  link.answers.filterMap message?

/-- The bytes of the stream: what has been read and what is still to be read. -/
def stream (link : Link) : Bytes :=
  link.taken ++ link.unread

/-- What a call returns as long as there is nothing to be returned. A party that waits is not
answered. -/
def Call.vain : Call → List (Except PartyError (Option Message))
  | .poll => [.ok none]
  | .receive => []

/-- What a call returns, and the queue that it leaves. -/
inductive Returns (link : Link) (call : Call) :
    List Message → List (Except PartyError (Option Message)) → Prop
  /-- The message that is queued first. -/
  | message {message : Message} {queue : List Message}
      (hQueue : link.connection.queue = message :: queue) :
      Returns link call queue [.ok (some message)]
  /-- Behind the last message, that the connection is closed. -/
  | closed (hQueue : link.connection.queue = []) (hClosed : link.connection.isOpen = false) :
      Returns link call [] [.error .connectionClosed]
  /-- Nothing, where nothing is queued and the connection is open. -/
  | nothing (hQueue : link.connection.queue = []) (hOpen : link.connection.isOpen = true) :
      Returns link call [] call.vain

/-- A call does nothing else than to return something and to leave a queue. -/
theorem exists_returns (link : Link) (call : Call) : ∃ queue new, Returns link call queue new ∧
    link.call call =
      { link with
        connection := { link.connection with queue }
        answers := link.answers ++ new } := by
  cases hQueue : link.connection.queue with
  | cons message queue =>
      refine ⟨queue, _, .message hQueue, ?_⟩
      cases call <;> simp [Link.call, Connection.poll, Connection.receive?, hQueue, Except.map]
  | nil =>
      have hSame : { link.connection with queue := [] } = link.connection := by rw [← hQueue]
      cases hOpen : link.connection.isOpen with
      | false =>
          refine ⟨[], _, .closed hQueue hOpen, ?_⟩
          rw [hSame]
          cases call <;>
            simp [Link.call, Connection.poll, Connection.receive?, hQueue, hOpen, Except.map]
      | true =>
          refine ⟨[], _, .nothing hQueue hOpen, ?_⟩
          rw [hSame]
          cases call <;>
            simp [Link.call, Connection.poll, Connection.receive?, hQueue, hOpen, Call.vain]

/-- A call is in vain only where nothing is queued and the connection is open. -/
theorem call_vain_iff (link : Link) (call : Call) :
    (link.call call).answers = link.answers ++ call.vain ↔
      link.connection.queue = [] ∧ link.connection.isOpen = true := by
  obtain ⟨queue, new, hReturns, hCall⟩ := link.exists_returns call
  rw [hCall, List.append_right_inj]
  cases hReturns with
  | message hQueue => cases call <;> simp [Call.vain, hQueue]
  | closed hQueue hClosed => cases call <;> simp [Call.vain, hClosed]
  | nothing hQueue hOpen => simp [hQueue, hOpen]

/-- What a turn of the reader can do: nothing, where it has left or has nothing to read; leave at
the end of the stream; or take a piece of what is unread. -/
theorem read_cases (link : Link) (count : Nat) :
    (link.read count = link ∧
      (link.connection.isOpen = false ∨ link.unread = [] ∧ link.hasEnded = false)) ∨
    (link.unread = [] ∧ link.hasEnded = true ∧
      link.read count = { link with connection := link.connection.finish }) ∨
    ∃ piece rest, piece ≠ [] ∧ link.unread = piece ++ rest ∧ link.connection.isOpen = true ∧
      link.read count =
        { link with
          connection := link.connection.arrive piece
          unread := rest
          taken := link.taken ++ piece } := by
  cases hOpen : link.connection.isOpen with
  | false => exact .inl ⟨by simp [read, hOpen], .inl rfl⟩
  | true =>
      cases hUnread : link.unread with
      | nil =>
          cases hEnded : link.hasEnded with
          | false => exact .inl ⟨by simp [read, hOpen, hUnread, hEnded], .inr ⟨rfl, rfl⟩⟩
          | true => exact .inr (.inl ⟨rfl, rfl, by simp [read, hOpen, hUnread, hEnded]⟩)
      | cons byte rest =>
          refine .inr (.inr ⟨(byte :: rest).take (count + 1), (byte :: rest).drop (count + 1),
            by simp, (List.take_append_drop _ _).symm, rfl, ?_⟩)
          simp [read, hOpen, hUnread]

/-- What holds of a link whatever has happened. -/
structure Sound (link : Link) : Prop where
  /-- The decoder has been fed what has been read. -/
  decoder : link.connection.decoder = (Wire.Decoder.start.feed link.taken).1
  /-- The messages of what has been read have been returned or are queued, in their order. -/
  queued : link.told ++ link.connection.queue = Wire.messages link.taken
  /-- An open connection has come across no header that announces too long a body. -/
  fits : link.connection.isOpen = true → .oversized ∉ Wire.items link.taken
  /-- A connection is closed by such a header, or where everything has been read. -/
  exhausted : link.connection.isOpen = false →
    .oversized ∈ Wire.items link.taken ∨ link.hasEnded = true ∧ link.unread = []
  /-- The only error is that the connection is closed, and there is nothing behind it. -/
  refused : ∀ error, .error error ∈ link.answers →
    error = .connectionClosed ∧ link.connection.queue = [] ∧ link.connection.isOpen = false

/-- Nothing has been read, told or returned at the start. -/
theorem sound_start (session : SessionId) : (start session).Sound where
  decoder := rfl
  queued := rfl
  fits _ := List.not_mem_nil
  exhausted h := by cases h
  refused _ h := by cases h

theorem Sound.arrive (h : link.Sound) (chunk : Bytes) : (link.arrive chunk).Sound := by
  unfold Link.arrive
  split
  case isTrue => exact h
  case isFalse hEnded =>
    refine ⟨h.decoder, h.queued, h.fits, fun hClosed => ?_, h.refused⟩
    rcases h.exhausted hClosed with hOversized | ⟨hTrue, -⟩
    · exact .inl hOversized
    · exact absurd hTrue hEnded

/-- The end of the stream changes nothing that has been read. -/
theorem Sound.finish (h : link.Sound) : link.finish.Sound where
  decoder := h.decoder
  queued := h.queued
  fits := h.fits
  exhausted hClosed := (h.exhausted hClosed).imp_right fun hEnd => ⟨rfl, hEnd.2⟩
  refused := h.refused

theorem Sound.fail (h : link.Sound) : link.fail.Sound := by
  refine ⟨h.decoder, h.queued, fun hOpen => ?_, fun _ => .inr ⟨rfl, rfl⟩, fun error hError => ?_⟩
  · cases hOpen
  · obtain ⟨hClosed, hQueue, -⟩ := h.refused error hError
    exact ⟨hClosed, hQueue, rfl⟩

/-- A turn of the reader moves bytes from what is unread to what has been taken, and tells the
messages that they complete. -/
theorem Sound.read (h : link.Sound) (count : Nat) : (link.read count).Sound := by
  rcases link.read_cases count with ⟨hRead, -⟩ | ⟨hUnread, hEnded, hRead⟩ |
    ⟨piece, rest, -, -, hOpen, hRead⟩
  · rwa [hRead]
  · -- At the end of the stream nothing is lost by leaving.
    have hFail : link.read count = link.fail := by rw [hRead, Link.fail, ← hUnread, ← hEnded]
    rw [hFail]
    exact h.fail
  · obtain ⟨hDecoder, hQueue, hStays⟩ := link.connection.arrive_fields piece
    have hItems := Wire.items_append link.taken piece
    rw [← h.decoder] at hItems
    rw [hRead]
    constructor
    case decoder => rw [hDecoder, h.decoder, Wire.Decoder.feed_append]
    case queued =>
      show link.told ++ (link.connection.arrive piece).queue = _
      rw [hQueue, ← List.append_assoc, h.queued, Wire.messages, Wire.messages, hItems,
        List.filterMap_append]
    case fits =>
      intro hAfter
      rw [hItems, List.mem_append, not_or]
      exact ⟨h.fits hOpen, (hStays.mp hAfter).2⟩
    case exhausted =>
      intro hAfter
      refine .inl ?_
      rw [hItems]
      refine List.mem_append_right _ (Classical.not_not.mp fun hNone => ?_)
      exact Bool.false_ne_true (hAfter.symm.trans (hStays.mpr ⟨hOpen, hNone⟩))
    case refused =>
      intro error hError
      exact absurd hOpen (Bool.eq_false_iff.mp (h.refused error hError).2.2)

/-- What a call takes off the queue it returns, and an error only where nothing is left. -/
theorem Sound.answer (h : link.Sound) {queue : List Message}
    {new : List (Except PartyError (Option Message))}
    (hQueue : link.connection.queue = new.filterMap message? ++ queue)
    (hNew : ∀ error, .error error ∈ new →
      error = .connectionClosed ∧ queue = [] ∧ link.connection.isOpen = false) :
    Sound { link with
      connection := { link.connection with queue }
      answers := link.answers ++ new } := by
  refine ⟨h.decoder, ?_, h.fits, h.exhausted, fun error hError => ?_⟩
  · rw [← h.queued, hQueue, told, told, List.filterMap_append, List.append_assoc]
  · rcases List.mem_append.mp hError with hBefore | hNow
    · obtain ⟨hError, hEmpty, hClosed⟩ := h.refused error hBefore
      rw [hQueue, List.append_eq_nil_iff] at hEmpty
      exact ⟨hError, hEmpty.2, hClosed⟩
    · exact hNew error hNow

/-- A call returns what stands first in the queue, and what has been told stays the same. -/
theorem Sound.call (h : link.Sound) (call : Call) : (link.call call).Sound := by
  obtain ⟨queue, new, hReturns, hCall⟩ := link.exists_returns call
  rw [hCall]
  cases hReturns with
  | message hQueue => exact h.answer hQueue fun error hError => by simp at hError
  | closed hQueue hClosed =>
      exact h.answer hQueue fun error hError => ⟨by simpa using hError, rfl, hClosed⟩
  | nothing hQueue hOpen =>
      refine h.answer ?_ fun error hError => ?_
      · cases call <;> exact hQueue
      · cases call <;> simp [Call.vain] at hError

/-- Every event keeps a link sound. -/
theorem Sound.step (h : link.Sound) (event : Event) : (link.step event).Sound := by
  cases event with
  | arrive chunk => exact h.arrive chunk
  | finish => exact h.finish
  | fail => exact h.fail
  | read count => exact h.read count
  | call call => exact h.call call

theorem Sound.after (h : link.Sound) (events : List Event) : (link.after events).Sound := by
  induction events generalizing link with
  | nil => exact h
  | cons event rest ih => exact ih (h.step event)

end Link

end CipherRelay.Party
