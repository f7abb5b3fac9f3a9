import CipherRelay.Proofs.Exchange.Answers
/-!
The two steps of an exchange, a party taking a message and the relay taking one. From a seat that
sits at a mark each of them leads to a later mark, and everything that the two parties share is
kept.
-/
namespace CipherRelay.Exchange.Conduct

open Party Scheme

variable {D S L S' L' ρ : Type} {own : Conduct D S L ρ} {peer : Conduct D S' L' ρ}
  {setting : Setting D} {d : D} {mark mark' : Mark} {relay : Relay} {seat : Seat ρ}

/-- The seat of a party that has taken the only message of its inbox. -/
def settled (own : Conduct D S L ρ) (setting : Setting D) (machine : Machine S L ρ) (source : ρ)
    (message : Message) : Seat ρ :=
  Seat.settle ⟨own.seat machine, setting.session, [], [], none⟩
    ((own.seat machine).onMessage source message).participant
    ((own.seat machine).onMessage source message).outcome

/-- A message on its way to the relay is that of an errand, or the party's leave. -/
theorem Sits.asks_or_leaves (h : own.Sits setting d mark seat) {message : Message}
    {outbox : List Message} (hOutbox : seat.outbox = message :: outbox) :
    (∃ i, mark = .asks i) ∨ mark = .leaves := by
  cases mark with
  | asks i => exact .inl ⟨i, rfl⟩
  | hears i succeeds =>
      obtain ⟨s, reply, policy, attempts, -, -, rfl⟩ := h
      cases hOutbox
  | failed i succeeds =>
      obtain ⟨s, policy, attempts, data, failure, -, -, rfl⟩ := h
      cases hOutbox
  | leaves => exact .inr rfl
  | left =>
      obtain ⟨machine, -, -, rfl⟩ := h
      cases hOutbox

/-- A message on its way from the relay answers an errand. -/
theorem Sits.hears (h : own.Sits setting d mark seat) {message : Message} {inbox : List Message}
    (hInbox : seat.inbox = message :: inbox) : ∃ i succeeds, mark = .hears i succeeds := by
  cases mark with
  | asks i =>
      obtain ⟨s, _, policy, attempts, -, -, -, rfl⟩ := h
      cases hInbox
  | hears i succeeds => exact ⟨i, succeeds, rfl⟩
  | failed i succeeds =>
      obtain ⟨s, policy, attempts, data, failure, -, -, rfl⟩ := h
      cases hInbox
  | leaves | left =>
      obtain ⟨machine, -, -, rfl⟩ := h
      cases hInbox

variable [DecidableEq S] [ToString S]

def starting (own : Conduct D S L ρ) (d : D) (policy : RetryPolicy) : Participant ρ :=
  own.seat (.start own.table (own.knows d own.table.initial) policy)

/-- A participant that starts waits for the first answer. -/
theorem Fits.sits_starting (h : own.Fits peer setting) (d : D) (policy : RetryPolicy) :
    own.Sits setting d (.hears 0 true)
      { participant := own.starting d policy, session := setting.session } := by
  have hStart : Machine.start own.table (own.knows d own.table.initial) policy =
      own.waiting setting d own.table.initial policy 0 := by
    simp only [Machine.start, waiting, h.start.2, Errand.message?]
  refine ⟨own.table.initial, .bare .serverAccept, policy, 0, h.start.1, ?_, ?_⟩
  · rw [if_pos rfl, h.start.2]
    rfl
  · rw [starting, hStart]

/-- A party that hears a retry tag asks once more or gives up. -/
theorem Fits.hears_retry (h : own.Fits peer setting) {i : Nat} {s : S} {reply : Message}
    (policy : RetryPolicy) (attempts : UInt32) (hPath : own.path[i]? = some s)
    (hRetry : (own.errand s).retryOn = some reply.tag) (source : ρ) :
    ∃ after, (after = .asks i ∨ after = .failed i false) ∧
      own.Sits setting d after
        (own.settled setting (own.waiting setting d s policy attempts) source reply) := by
  have hStep := h.step s
  have hReads : ∀ kind, own.errand s ≠ .store kind := by
    intro kind hStore
    rw [hStore] at hRetry
    cases hRetry
  have hMessage : ∃ message, (own.errand s).message? (setting.payload d) = some message := by
    cases hErrand : own.errand s with
    | fetch kind | watch kind => exact ⟨_, rfl⟩
    | greeting | context | store => rw [hErrand] at hRetry; cases hRetry
  obtain ⟨message, hMessage⟩ := hMessage
  have hTag := Errand.ne_trigger_of_retryOn hRetry
  have hLive : (own.waiting setting d s policy attempts).halted = false := rfl
  rcases Machine.onMessage_retry source hLive hStep hTag hRetry hMessage with hTired | hAgain
  · refine ⟨.failed i false, .inr rfl, s, policy, attempts, own.knows d s,
      .error (.timeout (toString s) attempts), hPath, .inl ⟨rfl, .timeout⟩, ?_⟩
    rw [settled, h.onMessage, hTired]
    rfl
  · refine ⟨.asks i, .inl rfl, s, message, policy, attempts + 1, hPath, hMessage,
      fun kind hStore => absurd hStore (hReads kind), ?_⟩
    rw [settled, h.onMessage, hAgain]
    rfl

/-- A party that hears its trigger goes on as its conduct says, if its action does not fail. -/
theorem Fits.hears_trigger (h : own.Fits peer setting) {i : Nat} {s : S} (policy : RetryPolicy)
    (attempts : UInt32) (hPath : own.path[i]? = some s)
    (hStore : ∀ kind, .store kind ∈ own.course.take (i + 1) → setting.feasible kind)
    (hFetch : ∀ kind, .fetch kind ∈ own.course.take (i + 1) →
      ∀ source ∈ sources kind, setting.feasible source) (source : ρ) :
    ∃ d' after, own.Keeps peer setting i d d' ∧ after.done own.course = i + 1 ∧
      after.gone = false ∧
      own.Sits setting d' after
        (own.settled setting (own.waiting setting d s policy attempts) source
          ((own.errand s).answer setting.context (setting.payload d))) := by
  have hStep := h.step s
  have hTag := (own.errand s).tag_answer setting.context (setting.payload d)
  rcases h.advances i s hPath hStore hFetch d source with
    ⟨d', next, after, hAction, hDecision, hFeasible, hKeeps⟩ | ⟨hRoom, after, hAction⟩ |
    ⟨hExcuse, failure, data, after, hAction⟩
  · have hLive : (own.waiting setting d s policy attempts).halted = false := rfl
    have hMessage := Machine.onMessage_trigger hLive hStep hTag hAction
    -- A party goes on to the next state of its path and halts behind the last one.
    cases hNext : own.path[i + 1]? with
    | some s' =>
        simp only [decision, hNext, Option.map_eq_some_iff] at hDecision
        obtain ⟨message, hAsk, rfl⟩ := hDecision
        refine ⟨d', .asks (i + 1), hKeeps, rfl, rfl, s', message, policy, 0, hNext, hAsk,
          fun kind hKind => hFeasible kind (hKind ▸ getElem?_course hNext), ?_⟩
        rw [settled, h.onMessage, hMessage, knowsAt_of_getElem? hNext]
        simp only [waiting, hAsk]
        rfl
    | none =>
        simp only [decision, hNext, Option.some.injEq] at hDecision
        subst hDecision
        have hLength : own.course.length = i + 1 := by
          have hLt := lt_length_course hPath
          have hGe := List.getElem?_eq_none_iff.mp hNext
          rw [course, List.length_map] at hLt ⊢
          omega
        refine ⟨d', .leaves, hKeeps, hLength, rfl,
          ({ own.waiting setting d s policy attempts with
            data := own.knowsAt d' (i + 1) }.follow (.halt (.disconnect own.role))).2, rfl, ?_, ?_⟩
        · exact (congrArg (own.knowsAt d') hLength.symm).trans (knowsAt_length d')
        · rw [settled, h.onMessage, hMessage]
          rfl
  · refine ⟨d, .failed i true, .inl rfl, rfl, rfl, s, policy, attempts, own.knows d s,
      .crash .capacity, hPath, .inl ⟨rfl, .capacity hRoom⟩, ?_⟩
    rw [settled, h.onMessage, Machine.onMessage_error rfl hStep hTag hAction]
    rfl
  · refine ⟨d, .failed i true, .inl rfl, rfl, rfl, s, policy, attempts, data, failure, hPath,
      .inr hExcuse, ?_⟩
    rw [settled, h.onMessage, Machine.onMessage_error rfl hStep hTag hAction]
    rfl

variable [DecidableEq S'] [ToString S'] [RandomSource ρ]

/-- Two parties, each of which plays its part towards the other one. -/
structure Partners (own : Conduct D S L ρ) (peer : Conduct D S' L' ρ) (setting : Setting D) :
    Prop where
  fits : own.Fits peer setting
  fits' : peer.Fits own setting
  roles : own.role ≠ peer.role
  derives : own.Derives (ρ := ρ) peer setting
  derives' : peer.Derives (ρ := ρ) own setting

theorem Partners.symm (h : own.Partners peer setting) : peer.Partners own setting :=
  ⟨h.fits', h.fits, h.roles.symm, h.derives', h.derives⟩

/-- When a party takes leave the relay clears what it has handed over, and nothing else. -/
theorem Partners.shared_left (h : own.Partners peer setting)
    (hShared : own.Shared peer setting d .leaves mark' relay) {store : Mailbox.Store}
    (hServer : relay.server = .running store) :
    own.Shared peer setting d .left mark'
      { relay with server := .running (store.clear setting.session own.role) } := by
  have hFollows : Mark.leaves.Follows own.course .left := ⟨Nat.le_refl _, fun _ => rfl⟩
  refine ⟨hShared.context, ⟨_, rfl, fun kind bytes => ?_⟩, hShared.earned,
    hShared.earned'.follow rfl hFollows, hShared.feasible⟩
  rw [Mailbox.Store.get?_clear]
  -- What the relay clears belongs to the party that leaves, so nothing of the other one is gone.
  by_cases hOwner : kind.owner? = some own.role
  · rw [if_pos ⟨rfl, hOwner⟩]
    refine ⟨fun hNone => (Option.some_ne_none _ hNone.symm).elim, ?_⟩
    rintro ⟨⟨hGone, -⟩ | ⟨-, hMem⟩, -⟩
    · cases hGone
    · have hPeer := h.fits'.owned kind (List.mem_of_mem_take hMem)
      exact absurd (Option.some.inj (hOwner.symm.trans hPeer)) h.roles
  · rw [if_neg (fun hBoth => hOwner hBoth.2), hShared.get?_iff hServer]
    refine and_congr_left fun _ => or_congr_left ⟨?_, fun hGone => nomatch hGone.1⟩
    exact fun hOwn => absurd (h.fits.owned kind (List.mem_of_mem_take hOwn.2)) hOwner

/-- The relay takes a party's message. -/
theorem Partners.serve (h : own.Partners peer setting) {seat' : Seat ρ}
    (hShared : own.Shared peer setting d mark mark' relay) (hSeat : own.Sits setting d mark seat)
    (hSeat' : peer.Sits setting d mark' seat') {message : Message} {outbox : List Message}
    (hOutbox : seat.outbox = message :: outbox) (source : ρ) :
    ∃ d' after, mark.Served own.course after ∧
      own.Sits setting d' after ({ seat with outbox }.enqueue
        (relay.dispatch source seat.session message).response) ∧
      peer.Sits setting d' mark' seat' ∧
      own.Shared peer setting d' after mark'
        (relay.dispatch source seat.session message).relay := by
  rcases hSeat.asks_or_leaves hOutbox with ⟨i, rfl⟩ | rfl
  · obtain ⟨s, message, policy, attempts, hPath, hMessage, hFeasible, rfl⟩ := hSeat
    cases hOutbox
    obtain ⟨d', succeeds, reply, relay', after, hDispatch, hReply, hWaiting, hShared', hPeer⟩ :=
      h.fits.answered hShared hSeat' hPath h.fits' h.roles h.derives hMessage hFeasible source
    refine ⟨d', .hears i succeeds, .answered i succeeds fun kind hStore => ?_, ?_, hPeer, ?_⟩
    · rw [getElem?_course hPath, Option.some.injEq] at hStore
      cases succeeds with
      | true => rfl
      | false =>
          rw [if_neg Bool.false_ne_true, hStore] at hReply
          cases hReply
    · refine ⟨s, reply, policy, attempts, hPath, hReply, ?_⟩
      rw [hDispatch, hWaiting]
      rfl
    · rw [hDispatch]
      exact hShared'
  · obtain ⟨machine, hHalted, hData, rfl⟩ := hSeat
    cases hOutbox
    obtain ⟨store, hServer, -⟩ := hShared.slots
    have hDispatch := Relay.dispatch_disconnect hServer source setting.session own.role
    refine ⟨d, .left, .leaves, ⟨machine, hHalted, hData, ?_⟩, hSeat', ?_⟩
    · rw [hDispatch]
      rfl
    · rw [hDispatch]
      exact h.shared_left hShared hServer

/-- A party takes a message. -/
theorem Partners.receive (h : own.Partners peer setting) {seat' : Seat ρ}
    (hShared : own.Shared peer setting d mark mark' relay) (hSeat : own.Sits setting d mark seat)
    (hSeat' : peer.Sits setting d mark' seat') {message : Message} {inbox : List Message}
    (hInbox : seat.inbox = message :: inbox) (source : ρ) :
    ∃ d' after, mark.Heard own.course after ∧
      own.Sits setting d' after ({ seat with inbox }.settle
        (seat.participant.onMessage source message).participant
        (seat.participant.onMessage source message).outcome) ∧
      peer.Sits setting d' mark' seat' ∧ own.Shared peer setting d' after mark' relay := by
  obtain ⟨i, succeeds, rfl⟩ := hSeat.hears hInbox
  obtain ⟨s, reply, policy, attempts, hPath, hReply, rfl⟩ := hSeat
  cases hInbox
  cases succeeds with
  | false =>
      obtain ⟨after, hAfter, hSits⟩ := h.fits.hears_retry policy attempts hPath hReply source
      have hDone : after.done own.course = i ∧ after.gone = false := by
        rcases hAfter with rfl | rfl <;> exact ⟨rfl, rfl⟩
      exact ⟨d, after, ⟨rfl, hDone.2, hDone.1⟩, hSits, hSeat',
        hShared.goOn hDone.1 hDone.2 fun _ _ => rfl⟩
  | true =>
      obtain rfl : message = _ := hReply
      obtain ⟨d', after, hKeeps, hDone, hGone, hSits⟩ := h.fits.hears_trigger (d := d)
        policy attempts hPath
        (fun kind hMem => hShared.feasible kind (List.mem_append_left _ hMem))
        (fun kind hMem other hOther =>
          hShared.feasible other (hShared.earned _ hMem other hOther)) source
      obtain ⟨hPeer, hPayload⟩ := hKeeps.sits hShared.earned' hSeat'
      exact ⟨d', after, ⟨rfl, hGone, hDone⟩, hSits, hPeer, hShared.goOn hDone hGone hPayload⟩

end CipherRelay.Exchange.Conduct
