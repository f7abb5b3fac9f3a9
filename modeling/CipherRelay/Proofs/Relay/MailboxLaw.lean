import CipherRelay.Proofs.Relay.Interleaving
/-!
The law of the mailbox. However the messages of several connections are interleaved, their replies
are those of a relay that handles one message after another, in the order in which the mailbox
server has executed their requests. In that order a request for an artifact is answered with what
has been sent last.
-/
namespace CipherRelay.Relay

variable {ρ : Type} [RandomSource ρ]

/-- The law of the mailbox, for connections to a relay whose mailbox was empty at first. -/
structure MailboxLaw (cc : Scheme.Context) (events : List (Traffic.Event ρ))
    (traffic : Traffic ρ) : Prop where
  /-- The relay is as the messages of the log have left it, handled one after another. -/
  relay : traffic.relay = (⟨cc, .start⟩ : Relay).after traffic.log
  /-- Every connection has responded as if all messages had been handled one after another in the
  order of the log. It has yet to give a response at most where the server has just answered. -/
  responds : ∀ i line, traffic.lines[i]? = some line →
    ((⟨cc, .start⟩ : Relay).responses traffic.log).filter (fun entry => entry.1.line = i) =
      line.responses ++ (line.owed? cc).toList
  /-- The log has what every connection has taken, in order and once, but for a message whose
  request the server has not executed yet. -/
  logged : ∀ i line, traffic.lines[i]? = some line →
    taken i events = traffic.log.filter (fun call => call.line = i) ++ line.waiting?.toList
  /-- No connection gets stuck with a message: where its request waits in the queue, the server can
  execute the request that is next, and where the server has answered, the connection can reply. -/
  proceeds : ∀ i line, traffic.lines[i]? = some line →
    (line.waiting?.isSome → i ∈ traffic.queue ∧ (traffic.step? .execute).isSome) ∧
      ((line.owed? cc).isSome → (traffic.step? (.finish i)).isSome)
  /-- The message that brings an artifact is acknowledged, and by then its whole payload is in the
  slot. -/
  sends : ∀ k call kind, traffic.log[k]? = some call → kind.isStored →
    call.envelope.message.tag = .send kind →
      ((⟨cc, .start⟩ : Relay).responses traffic.log)[k]? =
          some (call, .handled (some (.bare (.ack kind)))) ∧
        ((⟨cc, .start⟩ : Relay).after (traffic.log.take (k + 1))).server.get?
          call.envelope.session kind = some call.envelope.message.payload
  /-- The message that asks for an artifact is answered with the payload that was sent last in its
  session, or that the artifact is not there. -/
  requests : ∀ k call kind, traffic.log[k]? = some call → kind.isStored →
    call.envelope.message.tag = .request kind →
      (∀ payload, LastSent (traffic.log.take k) call.envelope.session kind payload →
        ((⟨cc, .start⟩ : Relay).responses traffic.log)[k]? =
          some (call, .handled (some (.send kind payload)))) ∧
      ((∀ payload, ¬LastSent (traffic.log.take k) call.envelope.session kind payload) →
        ((⟨cc, .start⟩ : Relay).responses traffic.log)[k]? =
          some (call, .handled (some (.bare (.nack kind)))))

/-- However many connections there are and however their messages are interleaved, the law of the
mailbox holds. -/
theorem mailbox_law (cc : Scheme.Context) (count : Nat) {events : List (Traffic.Event ρ)}
    {traffic : Traffic ρ}
    (h : (Traffic.start ⟨cc, .start⟩ count).follow? events = some traffic) :
    MailboxLaw cc events traffic := by
  have hOrdered : traffic.Ordered ⟨cc, .start⟩ events :=
    Traffic.follow_induction h (Traffic.ordered_start _ count) fun _ _ _ _ => Traffic.Ordered.step
  have hQueued : traffic.Queued := Traffic.follow_induction (P := fun _ => Traffic.Queued) h
    (Traffic.queued_start _ count) fun _ _ _ _ => Traffic.Queued.step
  constructor
  case relay => exact hOrdered.relay
  case responds => exact fun i line hLine => (hOrdered.lines i line hLine).responses
  case logged => exact fun i line hLine => (hOrdered.lines i line hLine).taken
  case proceeds =>
    intro i line hLine
    exact ⟨hQueued.execute_isSome hLine, Traffic.finish_isSome hLine⟩
  case sends =>
    intro k call kind hAt hKind hTag
    obtain ⟨hResponse, hSlot⟩ := send_after cc (traffic.log.take k) hKind hTag
    rw [responses_getElem? _ hAt, hResponse, List.take_add_one, hAt]
    exact ⟨rfl, hSlot⟩
  case requests =>
    intro k call kind hAt hKind hTag
    obtain ⟨hSent, hNotSent⟩ := request_after cc (traffic.log.take k) call.envelope.session hKind
      hTag call.source
    rw [responses_getElem? _ hAt]
    constructor
    · intro payload hLast
      rw [hSent payload hLast]
    · intro hNone
      rw [hNotSent hNone]

/-- Two clients at once: the second one asks for a key before the first one's key has been stored,
once more when it has been, and again after the first one's leave. -/
def visits : List (Traffic.Event Congruential) :=
  let session : SessionId := ⟨List.replicate 32 0, rfl⟩
  let first (message : Message) : Call Congruential := ⟨0, ⟨session, message⟩, ⟨1⟩⟩
  let second : Call Congruential := ⟨1, ⟨session, .request .publicKey⟩, ⟨2⟩⟩
  [.take second, .take (first (.send .publicKey [7])), .execute, .execute, .finish 0, .finish 1,
    .take second, .take (first (.disconnect .consumer)), .execute, .execute, .finish 1, .finish 0,
    .take second, .execute, .finish 1]

theorem visits_heard :
    ((Traffic.start ⟨⟨4, 6⟩, .start⟩ 2).follow? visits).map
        (fun traffic => traffic.lines.map fun line => line.responses.map (·.2)) =
      some [[.handled (some (.bare (.ack .publicKey))), .handled none],
        [.handled (some (.bare (.nack .publicKey))), .handled (some (.send .publicKey [7])),
          .handled (some (.bare (.nack .publicKey)))]] := by
  decide +kernel

theorem mailbox_law_sample :
    ∃ traffic, (Traffic.start ⟨⟨4, 6⟩, .start⟩ 2).follow? visits = some traffic ∧
      MailboxLaw ⟨4, 6⟩ visits traffic := by
  obtain ⟨traffic, hFollow, -⟩ := Option.map_eq_some_iff.mp visits_heard
  exact ⟨traffic, hFollow, mailbox_law ⟨4, 6⟩ 2 hFollow⟩

end CipherRelay.Relay
