import CipherRelay.Proofs.Party.Reading
/-!
What a connection delivers. A party is told every message once and in order, it finds nothing only
while nothing is queued and the stream is open, and it is told that the connection is closed only
behind the last message, and from then on by every call.
-/
namespace CipherRelay.Party.Link

variable {link : Link}

/-- The bytes that arrive before the stream ends. -/
def arrivals : List Event → Bytes
  | [] => []
  | .arrive chunk :: rest => chunk ++ arrivals rest
  | .finish :: _ | .fail :: _ => []
  | .read _ :: rest | .call _ :: rest => arrivals rest

/-- The bytes that arrive at a link. -/
def incoming (link : Link) (events : List Event) : Bytes :=
  if link.hasEnded then [] else arrivals events

/-- The bytes of the stream stay what they are, with those that are still to arrive behind them. -/
theorem stream_step {event : Event} (hEvent : event ≠ .fail) (rest : List Event) :
    (link.step event).stream ++ (link.step event).incoming rest =
      link.stream ++ link.incoming (event :: rest) := by
  cases event with
  | arrive chunk =>
      cases hEnded : link.hasEnded <;> simp [step, arrive, stream, incoming, arrivals, hEnded]
  | finish => simp [step, finish, stream, incoming, arrivals]
  | fail => exact absurd rfl hEvent
  | read count =>
      rcases link.read_cases count with ⟨hRead, -⟩ | ⟨-, -, hRead⟩ |
        ⟨piece, unread, -, hUnread, -, hRead⟩
      · rw [step, hRead]
        rfl
      · rw [step, hRead]
        rfl
      · rw [step, hRead, stream, stream, hUnread]
        simp [incoming, arrivals]
  | call call =>
      obtain ⟨queue, new, -, hCall⟩ := link.exists_returns call
      rw [step, hCall]
      rfl

/-- Where reading fails, the stream ends with what has been read. -/
theorem stream_fail (link : Link) (events : List Event) :
    link.fail.stream ++ link.fail.incoming events = link.taken := by
  simp [fail, stream, incoming]

/-- The stream is what has arrived up to its end, or what of it had been read when reading
failed. -/
theorem stream_after (link : Link) (events : List Event) :
    (link.after events).stream <+: link.stream ++ link.incoming events ∧
      (.fail ∉ events → (link.after events).stream = link.stream ++ link.incoming events) := by
  induction events generalizing link with
  | nil => simp [after, incoming, arrivals]
  | cons event rest ih =>
      obtain ⟨hPrefix, hEqual⟩ := ih (link.step event)
      by_cases hFail : event = .fail
      · subst hFail
        refine ⟨hPrefix.trans ?_, fun hNone => absurd List.mem_cons_self hNone⟩
        rw [step, stream_fail, stream, List.append_assoc]
        exact List.prefix_append _ _
      · rw [← stream_step hFail rest]
        exact ⟨hPrefix, fun hNone => hEqual fun hRest => hNone (List.mem_cons_of_mem _ hRest)⟩

/-- Whether an event is a turn of the reader. -/
def Event.isRead : Event → Bool
  | .read _ => true
  | .arrive _ | .finish | .fail | .call _ => false

/-- Whether an event is a call. -/
def Event.isCall : Event → Bool
  | .call _ => true
  | .arrive _ | .finish | .fail | .read _ => false

/-- Whether the reader needs no more than so many turns to leave, be it for the end of the stream or
for too long a header. -/
def EndsWithin (link : Link) (turns : Nat) : Prop :=
  link.connection.isOpen = false ∨ link.hasEnded = true ∧ link.unread.length < turns ∨
    .oversized ∈ Wire.items (link.taken ++ link.unread.take turns)

/-- A turn of the reader takes a byte at least, or it is the last one. -/
theorem EndsWithin.read {turns : Nat} (h : link.EndsWithin (turns + 1)) (count : Nat) :
    (link.read count).EndsWithin turns := by
  rcases link.read_cases count with ⟨hRead, hIdle⟩ | ⟨-, -, hRead⟩ |
    ⟨piece, rest, hPiece, hUnread, hOpen, hRead⟩
  · rw [hRead]
    rcases hIdle with hClosed | ⟨hUnread, hEnded⟩
    · exact .inl hClosed
    · rcases h with hClosed | ⟨hTrue, -⟩ | hOversized
      · exact .inl hClosed
      · exact absurd (hEnded.symm.trans hTrue) Bool.false_ne_true
      · refine .inr (.inr ?_)
        rwa [hUnread, List.take_nil] at hOversized ⊢
  · rw [hRead]
    exact .inl rfl
  · rw [hRead]
    have hLength : 0 < piece.length := List.length_pos_iff.mpr hPiece
    rcases h with hClosed | ⟨hEnded, hShort⟩ | hOversized
    · exact absurd (hClosed.symm.trans hOpen) Bool.false_ne_true
    · refine .inr (.inl ⟨hEnded, ?_⟩)
      rw [hUnread, List.length_append] at hShort
      show rest.length < turns
      omega
    · refine .inr (.inr ?_)
      rw [hUnread] at hOversized
      -- The piece has a byte at least, so the other turns reach as far as all did before it.
      have hReach : (piece ++ rest).take (turns + 1) <+: piece ++ rest.take turns := by
        refine List.prefix_of_prefix_length_le (List.take_prefix _ _)
          ((List.prefix_append_right_inj piece).mpr (List.take_prefix turns rest)) ?_
        simp only [List.length_take, List.length_append]
        omega
      have hTaken : link.taken ++ (piece ++ rest).take (turns + 1) <+:
          (link.taken ++ piece) ++ rest.take turns := by
        rw [List.append_assoc]
        exact (List.prefix_append_right_inj link.taken).mpr hReach
      exact (Wire.items_isPrefix hTaken).subset hOversized

/-- A turn of the reader leaves one turn less, and no other event leaves more. -/
theorem EndsWithin.step {turns : Nat} {event : Event}
    (h : link.EndsWithin (turns + if event.isRead then 1 else 0)) :
    (link.step event).EndsWithin turns := by
  cases event with
  | arrive chunk =>
      rw [Link.step, Link.arrive]
      split
      case isTrue => exact h
      case isFalse hEnded =>
        rcases h with hClosed | ⟨hTrue, -⟩ | hOversized
        · exact .inl hClosed
        · exact absurd hTrue hEnded
        · refine .inr (.inr ((Wire.items_isPrefix ?_).subset hOversized))
          refine (List.prefix_append_right_inj link.taken).mpr ?_
          rw [List.take_append]
          exact List.prefix_append _ _
  | finish =>
      rcases h with hClosed | ⟨-, hShort⟩ | hOversized
      · exact .inl hClosed
      · exact .inr (.inl ⟨rfl, hShort⟩)
      · exact .inr (.inr hOversized)
  | fail => exact .inl rfl
  | read count => exact EndsWithin.read h count
  | call call =>
      obtain ⟨queue, new, -, hCall⟩ := link.exists_returns call
      rw [Link.step, hCall]
      exact h

/-- Each turn of the reader among some events takes one of the turns that are left. -/
theorem EndsWithin.after {turns : Nat} {events : List Event}
    (h : link.EndsWithin (turns + events.countP Event.isRead)) :
    (link.after events).EndsWithin turns := by
  induction events generalizing link with
  | nil => exact h
  | cons event rest ih =>
      rw [List.countP_cons, ← Nat.add_assoc] at h
      exact ih h.step

/-- With no turn left to be taken the reader has left: a header that it has read and that is too
long would have closed the connection. -/
theorem Sound.isOpen_after (h : link.Sound) {events : List Event}
    (hEnds : link.EndsWithin (events.countP Event.isRead)) :
    (link.after events).connection.isOpen = false := by
  rw [← Nat.zero_add (events.countP _)] at hEnds
  rcases hEnds.after with hClosed | ⟨-, hNone⟩ | hOversized
  · exact hClosed
  · exact absurd hNone (Nat.not_lt_zero _)
  · rw [List.take_zero, List.append_nil] at hOversized
    exact Bool.eq_false_iff.mpr fun hOpen => (h.after events).fits hOpen hOversized

/-- A connection stays closed, and only calls return anything. -/
theorem step_of_closed (hClosed : link.connection.isOpen = false) {event : Event}
    (hEvent : event.isCall = false) :
    (link.step event).connection.isOpen = false ∧
      (link.step event).connection.queue = link.connection.queue ∧
      (link.step event).answers = link.answers := by
  cases event with
  | arrive chunk =>
      rw [step, arrive]
      split <;> exact ⟨hClosed, rfl, rfl⟩
  | finish => exact ⟨hClosed, rfl, rfl⟩
  | fail => exact ⟨rfl, rfl, rfl⟩
  | read count =>
      rw [step, Link.read, if_neg (Bool.eq_false_iff.mp hClosed)]
      exact ⟨hClosed, rfl, rfl⟩
  | call call => cases hEvent

/-- What that many calls return once the reader has left: the messages that are queued, one a call,
and behind them that the connection is closed. -/
def remaining : List Message → Nat → List (Except PartyError (Option Message))
  | _, 0 => []
  | message :: queue, calls + 1 => .ok (some message) :: remaining queue calls
  | [], calls + 1 => .error .connectionClosed :: remaining [] calls

theorem remaining_nil (calls : Nat) :
    remaining [] calls = List.replicate calls (.error .connectionClosed) := by
  induction calls with
  | zero => rfl
  | succ calls ih => rw [remaining, ih, List.replicate_succ]

/-- Calls on a closed connection are answered one by one, whatever else happens. -/
theorem answers_after_of_closed (hClosed : link.connection.isOpen = false) (events : List Event) :
    (link.after events).answers =
      link.answers ++ remaining link.connection.queue (events.countP Event.isCall) := by
  -- By induction on the events: a call takes the first of what remains, the others leave it alone.
  induction events generalizing link with
  | nil => simp [after, remaining]
  | cons event rest ih =>
      rw [List.countP_cons]
      cases hEvent : event.isCall with
      | false =>
          obtain ⟨hStays, hQueue, hAnswers⟩ := step_of_closed hClosed hEvent
          rw [← hQueue, ← hAnswers]
          exact ih hStays
      | true =>
          cases event with
          | arrive | finish | fail | read => cases hEvent
          | call call =>
              obtain ⟨queue, new, hReturns, hCall⟩ := link.exists_returns call
              show ((link.call call).after rest).answers = _
              rw [ih (by rw [hCall]; exact hClosed), hCall]
              cases hReturns with
              | message hQueue => simp [hQueue, remaining]
              | closed hQueue => simp [hQueue, remaining]
              | nothing hQueue hOpen => exact absurd (hClosed.symm.trans hOpen) Bool.false_ne_true

/-- What a party is told over a connection after some events. The stream so far is cut into the
bodies of its frames and what stands behind the frames. -/
structure Delivers (events : List Event) (link : Link) (bodies : List Bytes) (rest : Bytes) :
    Prop where
  /-- The stream is what has arrived up to its end, or the part of it that had been read when
  reading failed. -/
  arrived : link.stream <+: arrivals events ∧ (.fail ∉ events → link.stream = arrivals events)
  /-- The messages that calls have returned are the first ones of the stream, in their order and
  each of them once. -/
  in_order : link.told <+: Wire.messagesIn bodies
  /-- Behind them, the other messages of what has been read are queued. -/
  queued : ∀ seen left, Wire.Cut link.taken seen left →
    link.told ++ link.connection.queue = Wire.messagesIn seen
  /-- The connection is open as long as neither too long a header nor the end of the stream has been
  read. -/
  isOpen : ∀ seen left, Wire.Cut link.taken seen left →
    (link.connection.isOpen = true → ¬Wire.IsOverlong left) ∧
    (link.connection.isOpen = false →
      Wire.IsOverlong left ∨ link.hasEnded = true ∧ link.unread = [])
  /-- Polling returns nothing only while nothing is queued and the connection is open. -/
  polls : (link.call .poll).answers = link.answers ++ [.ok none] ↔
    link.connection.queue = [] ∧ link.connection.isOpen = true
  /-- A party waits no longer than that either. -/
  waits : (link.call .receive).answers = link.answers ↔
    link.connection.queue = [] ∧ link.connection.isOpen = true
  /-- The only error is that the connection is closed. Where it has been returned, all messages of
  the stream have been returned before, and every later call returns it again. -/
  closes : ∀ error, .error error ∈ link.answers →
    error = .connectionClosed ∧ link.told = Wire.messagesIn bodies ∧
    ∀ later, (link.after later).answers =
      link.answers ++ List.replicate (later.countP Event.isCall) (.error .connectionClosed)
  /-- Where too long a header or the end of the stream has arrived, the reader leaves after at most
  one turn more than there are bytes to be read. -/
  leaves : link.hasEnded = true ∨ Wire.IsOverlong rest → ∀ later,
    link.unread.length < later.countP Event.isRead →
      (link.after later).connection.isOpen = false
  /-- Once the reader has left, the calls return one by one all messages that have not been
  returned, and behind them that the connection is closed. -/
  drains : link.connection.isOpen = false →
    link.told ++ link.connection.queue = Wire.messagesIn bodies ∧
    ∀ later, (link.after later).answers =
      link.answers ++ remaining link.connection.queue (later.countP Event.isCall)

/-- Once the link is closed, what has been told and what is still queued are all messages of the
stream, each once and in order. -/
theorem Sound.told_append_queue (h : link.Sound) (hClosed : link.connection.isOpen = false) :
    link.told ++ link.connection.queue = Wire.messages link.stream := by
  rw [h.queued, stream, Wire.messages, Wire.messages]
  rcases h.exhausted hClosed with hOversized | ⟨-, hUnread⟩
  · rw [Wire.items_append_of_oversized hOversized]
  · rw [hUnread, List.append_nil]

/-- A connection delivers what has arrived, once and in order, whatever the stream is, in whichever
pieces it arrives and however arrivals, reader and calls take turns. -/
theorem delivers_once_in_order (session : SessionId) (events : List Event) :
    (∃ bodies rest, Wire.Cut ((start session).after events).stream bodies rest) ∧
    ∀ bodies rest, Wire.Cut ((start session).after events).stream bodies rest →
      Delivers events ((start session).after events) bodies rest := by
  refine ⟨Wire.exists_cut _, fun bodies rest hCut => ?_⟩
  have hSound : ((start session).after events).Sound := (sound_start session).after events
  have hStream := (start session).stream_after events
  generalize (start session).after events = link at *
  constructor
  case arrived => exact hStream
  case in_order =>
    have hTold : link.told <+: Wire.messages link.taken := hSound.queued ▸ List.prefix_append _ _
    rw [← hCut.messages_eq]
    exact hTold.trans (Wire.messages_isPrefix (List.prefix_append _ _))
  case queued => exact fun seen left hSeen => hSound.queued.trans hSeen.messages_eq
  case isOpen =>
    intro seen left hSeen
    rw [← hSeen.oversized_iff]
    exact ⟨hSound.fits, hSound.exhausted⟩
  case polls => exact link.call_vain_iff .poll
  case waits => simpa [Call.vain] using link.call_vain_iff .receive
  case closes =>
    intro error hError
    obtain ⟨hError, hQueue, hClosed⟩ := hSound.refused error hError
    have hTold := hSound.told_append_queue hClosed
    rw [hQueue, List.append_nil, hCut.messages_eq] at hTold
    refine ⟨hError, hTold, fun later => ?_⟩
    rw [answers_after_of_closed hClosed, hQueue, remaining_nil]
  case leaves =>
    intro hEnd later hTurns
    refine hSound.isOpen_after ?_
    rcases hEnd with hEnded | hOverlong
    · exact .inr (.inl ⟨hEnded, hTurns⟩)
    · refine .inr (.inr ?_)
      rw [List.take_of_length_le (Nat.le_of_lt hTurns)]
      exact hCut.oversized_iff.mpr hOverlong
  case drains =>
    intro hClosed
    rw [← hCut.messages_eq]
    exact ⟨hSound.told_append_queue hClosed, answers_after_of_closed hClosed⟩

/-- Two messages of different sessions, the second one with a byte behind it, and between them a
frame that holds none. -/
def lettersAndNoise : List Bytes :=
  let session (byte : UInt8) : SessionId := ⟨List.replicate 32 byte, List.length_replicate⟩
  [Wire.body ⟨session 1, .send .ct1 [5]⟩, [0, 7, 255],
    Wire.body ⟨session 2, .send .ct2 [6]⟩ ++ [4]]

/-- They arrive in two pieces with too long a header behind them. The party polls too early, waits
while the first message is being read, polls again before the second one has been read, and goes on
calling behind it. -/
def impatience : List Event :=
  let stream := lettersAndNoise.flatMap Wire.framed ++ [1, 0, 0, 1, 9]
  [.call .poll, .arrive (stream.take 30), .read 9, .call .receive, .read 99,
    .arrive (stream.drop 30), .read 39, .call .receive, .call .poll, .read 199, .call .receive,
    .call .poll, .call .receive]

theorem delivers_to_impatience :
    let session : SessionId := ⟨List.replicate 32 3, List.length_replicate⟩
    Wire.Cut ((start session).after impatience).stream lettersAndNoise [1, 0, 0, 1, 9] ∧
    ((start session).after impatience).answers.map Except.toOption =
      [some none, some (some (.send .ct1 [5])), some none, some (some (.send .ct2 [6])), none,
        none] ∧
    Delivers impatience ((start session).after impatience) lettersAndNoise [1, 0, 0, 1, 9] := by
  intro session
  have hCut : Wire.Cut ((start session).after impatience).stream lettersAndNoise [1, 0, 0, 1, 9] :=
    ⟨by decide +kernel, by decide +kernel, .inr ⟨by decide, by decide⟩⟩
  exact ⟨hCut, by decide +kernel, (delivers_once_in_order session impatience).2 _ _ hCut⟩

end CipherRelay.Party.Link
