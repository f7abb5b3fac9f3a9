import CipherRelay.Proofs.Exchange.Runs
import CipherRelay.Proofs.Exchange.Seats
import CipherRelay.Proofs.Relay.Derivation
/-!
Keeping pace. A party sends one message at a time and the relay answers it with one message, either
the one on which the party goes on or the one on which it asks again. This holds whatever the
mailbox contains and whatever others do: only the tags matter, and the relay answers every tag that
a party uses with one of the two tags that the party waits for.
-/
namespace CipherRelay

/-- The tag on which a participant asks once more. -/
def Party.Participant.retryOn? {ρ : Type} (participant : Participant ρ) : Option Tag :=
  participant.view fun machine => (machine.table.get? machine.state).bind (·.retryOn)

namespace Exchange

open Party Scheme

namespace Errand

/-- The tag of the message that a party sends. -/
def asks? : Errand → Option Tag
  | greeting => none
  | context => some (.request .cryptoContext)
  | store kind => some (.send kind)
  | fetch kind | watch kind => some (.request kind)

/-- Whether a party that waits with an errand takes notice of a tag. -/
def Awaits (errand : Errand) (tag : Tag) : Prop :=
  tag = errand.trigger ∨ errand.retryOn = some tag

/-- Whether the relay does what a party wants. -/
def Servable : Errand → Prop
  | greeting | context => True
  | store kind | watch kind => kind.isStored
  | fetch kind => kind.isStored ∨ kind = .reEncryptionKey

/-- A party asks again only where its message is a request. -/
theorem eq_request_of_retryOn {errand : Errand} {tag : Tag} (h : errand.retryOn = some tag) :
    ∃ kind, errand.asks? = some (.request kind) := by
  cases errand with
  | fetch kind | watch kind => exact ⟨kind, rfl⟩
  | greeting | context | store => cases h

variable {ρ : Type} [RandomSource ρ] {relay : Relay} {store : Mailbox.Store}

/-- Whatever the mailbox holds, the relay answers a party's message with a tag that it awaits. -/
theorem Servable.answered {errand : Errand} (h : errand.Servable)
    (hContext : relay.context.IsGenerated) (hServer : relay.server = .running store)
    {message : Message} (hTag : errand.asks? = some message.tag) (source : ρ)
    (session : SessionId) :
    ∃ reply, (relay.dispatch source session message).response = .handled (some reply) ∧
      errand.Awaits reply.tag := by
  have hFetched : ∀ kind, kind.isStored → message.tag = .request kind →
      ∃ reply, (relay.dispatch source session message).response = .handled (some reply) ∧
        (reply.tag = .send kind ∨ reply.tag = .nack kind) := by
    intro kind hKind hRequest
    rw [Relay.dispatch_request hRequest, Relay.dispatch_fetch hServer hKind]
    exact ⟨_, rfl, Relay.tag_fetchAnswer kind _⟩
  cases errand with
  | greeting => cases hTag
  | context =>
      rw [Relay.dispatch_request (Option.some.inj hTag).symm]
      exact ⟨_, rfl, .inl rfl⟩
  | store kind =>
      obtain ⟨tag, payload⟩ := message
      obtain rfl := Option.some.inj hTag
      obtain ⟨after, hDispatch, -⟩ := Relay.dispatch_store hServer h source session payload
      exact ⟨_, congrArg Relay.Handling.response hDispatch, .inl rfl⟩
  | fetch kind =>
      have hRequest : message.tag = .request kind := (Option.some.inj hTag).symm
      rcases h with hKind | rfl
      · obtain ⟨reply, hReply, hSend | hNack⟩ := hFetched kind hKind hRequest
        · exact ⟨reply, hReply, .inl hSend⟩
        · exact ⟨reply, hReply, .inr (congrArg some hNack.symm)⟩
      · obtain ⟨reply, after, hDispatch, ⟨_, rfl⟩ | rfl⟩ :=
          Relay.dispatch_reEncryptionKey hContext hServer source session
        · exact ⟨_, by rw [Relay.dispatch_request hRequest, hDispatch], .inl rfl⟩
        · exact ⟨_, by rw [Relay.dispatch_request hRequest, hDispatch], .inr rfl⟩
  | watch kind =>
      have hRequest : message.tag = .request kind := (Option.some.inj hTag).symm
      obtain ⟨reply, hReply, hSend | hNack⟩ := hFetched kind h hRequest
      · exact ⟨reply, hReply, .inr (congrArg some hSend.symm)⟩
      · exact ⟨reply, hReply, .inl hNack⟩

end Errand

/-- Whether a decision sends the message of the errand with which the party then waits. -/
def Follows {S : Type} (errand : S → Errand) : Next S → Prop
  | .send message s => (errand s).asks? = some message.tag
  | .halt _ => True

/-- What holds of a seat as long as its participant is at work. -/
structure InStep {ρ : Type} [RandomSource ρ] (seat : Seat ρ) : Prop where
  /-- One message is on its way between the participant and the relay. -/
  one : seat.inbox.length + seat.outbox.length = 1
  /-- What the relay delivers has a tag that the participant waits for. -/
  awaited : ∀ message ∈ seat.inbox, seat.participant.trigger? = some message.tag ∨
    seat.participant.retryOn? = some message.tag
  /-- So the participant does not ignore it. -/
  noticed : ∀ message ∈ seat.inbox, ∀ source : ρ,
    (seat.participant.onMessage source message).outcome ≠ .ok .ignore
  /-- What the participant sends once more is a request, and leaves any relay as it is. -/
  resends : ∀ message ∈ seat.inbox, ∀ source again,
    (seat.participant.onMessage source message).outcome = .ok (.resend again) →
      (∃ kind, again.tag = .request kind) ∧ ∀ (relay : Relay) (source : ρ) session,
        (relay.dispatch source session again).relay = relay

namespace Conduct

variable {D S L S' L' ρ : Type} {own : Conduct D S L ρ} {peer : Conduct D S' L' ρ}
  {setting : Setting D} {machine : Machine S L ρ} {seat : Seat ρ} {message : Message}

/-- A party whose errands the relay knows, and whose actions send what the next errand asks for,
whatever they work on. -/
structure Steady (own : Conduct D S L ρ) : Prop where
  servable : ∀ s, (own.errand s).Servable
  follows : ∀ s message, (own.action s message).Yields (Follows own.errand)

/-- Whether a machine of a party is at work: it has sent the message of its errand. -/
structure Works (own : Conduct D S L ρ) (machine : Machine S L ρ) : Prop where
  table : machine.table = own.table
  live : machine.halted = false
  outbound : machine.outbound.map (·.tag) = (own.errand machine.state).asks?

/-- How a party's seat can be: its message is on the way to the relay, or a message that it awaits
is on the way to the party, or the party has stopped. -/
inductive Paced (own : Conduct D S L ρ) : Seat ρ → Prop
  | asks {machine : Machine S L ρ} {message : Message} {session : SessionId}
      (works : own.Works machine) (sent : machine.outbound = some message) :
      Paced own ⟨own.seat machine, session, [], [message], none⟩
  | hears {machine : Machine S L ρ} {reply : Message} {session : SessionId}
      (works : own.Works machine) (awaited : (own.errand machine.state).Awaits reply.tag) :
      Paced own ⟨own.seat machine, session, [reply], [], none⟩
  | stopped {seat : Seat ρ} {machine : Machine S L ρ}
      (participant : seat.participant = own.seat machine)
      (stops : machine.halted ∨ seat.failure.isSome) : Paced own seat

variable [DecidableEq S] [ToString S]

/-- What comes of a message that a party awaits: it sends what it then waits with, or sends once
more what it has sent, or it stops. -/
inductive Reacts (own : Conduct D S L ρ) (machine : Machine S L ρ) :
    Delivery S L ρ → Prop
  | sends {message : Message} {after : Machine S L ρ} {source : ρ} (works : own.Works after)
      (sent : after.outbound = some message) :
      Reacts own machine ⟨.ok (.send message), after, source⟩
  | resends {message : Message} {source : ρ} (sent : machine.outbound = some message)
      (request : ∃ kind, message.tag = .request kind) :
      Reacts own machine
        ⟨.ok (.resend message), { machine with attempts := machine.attempts + 1 }, source⟩
  | halts {message : Message} {after : Machine S L ρ} {source : ρ} (halted : after.halted = true) :
      Reacts own machine ⟨.ok (.halt message), after, source⟩
  | fails {failure : Failure PartyError} {after : Machine S L ρ} {source : ρ} :
      Reacts own machine ⟨.error failure, after, source⟩

/-- A participant that hears what it awaits reacts to it. -/
theorem Works.reacts (h : own.Works machine) (hFits : own.Fits peer setting) (hSteady : own.Steady)
    (hAwaits : (own.errand machine.state).Awaits message.tag) (source : ρ) :
    own.Reacts machine (machine.onMessage source message) := by
  have hStep := hFits.step machine.state
  rw [← h.table] at hStep
  -- The trigger comes first: what the action decides is an errand's message, whatever it has read.
  by_cases hTag : message.tag = (own.errand machine.state).trigger
  · cases hAction : own.action machine.state message (machine.data, source) with
    | error failure state =>
        rw [Machine.onMessage_error h.live hStep hTag hAction]
        exact .fails
    | ok next state =>
        rw [Machine.onMessage_trigger h.live hStep hTag hAction]
        have hFollows := hSteady.follows _ _ _ _ _ hAction
        cases next with
        | send sent s =>
            refine .sends ⟨h.table, h.live, ?_⟩ rfl
            exact hFollows.symm
        | halt sent => exact .halts rfl
  · have hRetry := hAwaits.resolve_left hTag
    obtain ⟨kind, hAsks⟩ := Errand.eq_request_of_retryOn hRetry
    have hOutbound := h.outbound
    rw [hAsks] at hOutbound
    obtain ⟨sent, hSent, hRequest⟩ := Option.map_eq_some_iff.mp hOutbound
    rcases Machine.onMessage_retry source h.live hStep hTag hRetry hSent with hTired | hAgain
    · rw [hTired]
      exact .fails
    · rw [hAgain]
      exact .resends hSent ⟨kind, hRequest⟩

/-- A party that takes a message keeps pace. -/
theorem Paced.receive (h : own.Paced seat) (hFits : own.Fits peer setting) (hSteady : own.Steady)
    {inbox : List Message} (hInbox : seat.inbox = message :: inbox) (source : ρ) :
    own.Paced ({ seat with inbox }.settle (seat.participant.onMessage source message).participant
      (seat.participant.onMessage source message).outcome) := by
  cases h with
  | asks works sent => cases hInbox
  | @hears machine reply session works awaited =>
      cases hInbox
      have hReacts := works.reacts hFits hSteady awaited source
      rw [hFits.onMessage]
      generalize machine.onMessage source message = delivery at hReacts
      cases hReacts with
      | sends works sent => exact .asks works sent
      | resends sent request => exact .asks ⟨works.table, works.live, works.outbound⟩ sent
      | halts halted => exact .stopped rfl (.inl halted)
      | fails => exact .stopped rfl (.inr rfl)
  | @stopped seat machine participant stops =>
      rw [participant, hFits.onMessage]
      -- Behind a failure the machine may be anywhere, but the failure stays.
      rcases stops with hHalted | hFailed
      · have hIgnores : machine.onMessage source message = ⟨.ok .ignore, machine, source⟩ := by
          rw [Machine.onMessage, if_pos hHalted]
        rw [hIgnores]
        exact .stopped rfl (.inl hHalted)
      · cases hOutcome : (machine.onMessage source message).outcome with
        | ok reaction =>
            simp only [Participant.receipt, hOutcome]
            exact .stopped rfl (.inr hFailed)
        | error failure =>
            simp only [Participant.receipt, hOutcome]
            exact .stopped rfl (.inr rfl)

variable [RandomSource ρ] {relay : Relay} {store : Mailbox.Store}

omit [DecidableEq S] [ToString S] in
/-- A party whose message the relay takes keeps pace. -/
theorem Paced.serve (h : own.Paced seat) (hSteady : own.Steady)
    (hContext : relay.context.IsGenerated) (hServer : relay.server = .running store)
    {outbox : List Message} (hOutbox : seat.outbox = message :: outbox) (source : ρ) :
    own.Paced ({ seat with outbox }.enqueue
      (relay.dispatch source seat.session message).response) := by
  cases h with
  | @asks machine sent session works hSent =>
      cases hOutbox
      have hTag : (own.errand machine.state).asks? = some message.tag := by
        rw [← works.outbound, hSent]
        rfl
      obtain ⟨reply, hReply, hAwaits⟩ :=
        (hSteady.servable machine.state).answered hContext hServer hTag source session
      rw [hReply]
      exact .hears works hAwaits
  | hears works awaited => cases hOutbox
  | stopped participant stops =>
      cases (relay.dispatch source seat.session message).response <;>
        exact .stopped participant stops

/-- A running relay with a valid context, and a party that keeps pace at its seat. -/
structure Goes (own : Conduct D S L ρ) (i : Nat) (exchange : Exchange ρ) : Prop where
  context : exchange.relay.context.IsGenerated
  running : ∃ store, exchange.relay.server = .running store
  paced : ∃ seat, exchange.seats[i]? = some seat ∧ own.Paced seat

variable {i k : Nat} {exchange after : Exchange ρ}

omit [DecidableEq S] [ToString S] in
/-- No message ends the relay's work. -/
theorem Goes.dispatch (h : own.Goes i exchange) (source : ρ) (session : SessionId)
    (message : Message) :
    (exchange.relay.dispatch source session message).relay.context.IsGenerated ∧
      ∃ store, (exchange.relay.dispatch source session message).relay.server =
        .running store := by
  obtain ⟨store, hServer⟩ := h.running
  obtain ⟨hContext, later, hLater, -⟩ := Relay.dispatch_outside hServer source session message
  exact ⟨hContext ▸ h.context, later, hLater⟩

omit [DecidableEq S] [ToString S] [RandomSource ρ] in
/-- What becomes of the seat if one of the seats changes. -/
theorem Goes.set (h : own.Goes i exchange) {seat changed : Seat ρ}
    (hSeat : exchange.seats[k]? = some seat) (hPaced : own.Paced seat → own.Paced changed) :
    ∃ now, (exchange.seats.set k changed)[i]? = some now ∧ own.Paced now := by
  obtain ⟨now, hNow, hPace⟩ := h.paced
  by_cases hSame : k = i
  · subst hSame
    obtain rfl := Option.some.inj (hNow.symm.trans hSeat)
    exact ⟨changed, List.getElem?_set_self (List.getElem?_eq_some_iff.mp hSeat).1, hPaced hPace⟩
  · exact ⟨now, by rwa [List.getElem?_set_ne hSame], hPace⟩

/-- Every event leaves the party in pace. -/
theorem Goes.step (h : own.Goes i exchange) (hFits : own.Fits peer setting)
    (hSteady : own.Steady) {event : Event} (hStep : exchange.step? event = some after) :
    own.Goes i after := by
  cases event with
  | receive k =>
      obtain ⟨seat, message, inbox, hSeat, hInbox, rfl⟩ := receive?_eq_some hStep
      exact ⟨h.context, h.running,
        h.set hSeat fun hPaced => hPaced.receive hFits hSteady hInbox exchange.source⟩
  | serve k =>
      obtain ⟨seat, message, outbox, hSeat, hOutbox, rfl⟩ := serve?_eq_some hStep
      obtain ⟨hContext, hRunning⟩ := h.dispatch exchange.source seat.session message
      obtain ⟨store, hServer⟩ := h.running
      exact ⟨hContext, hRunning,
        h.set hSeat fun hPaced => hPaced.serve hSteady h.context hServer hOutbox exchange.source⟩
  | outside session message =>
      cases hStep
      obtain ⟨hContext, hRunning⟩ := h.dispatch exchange.source session message
      exact ⟨hContext, hRunning, h.paced⟩

/-- So do any events. -/
theorem Goes.follow (h : own.Goes i exchange) (hFits : own.Fits peer setting)
    (hSteady : own.Steady) {events : List Event} (hFollow : exchange.follow? events = some after) :
    own.Goes i after := by
  induction events generalizing exchange with
  | nil =>
      cases hFollow
      exact h
  | cons event rest ih =>
      obtain ⟨next, hFirst, hRest⟩ := exists_of_follow?_cons hFollow
      exact ih (h.step hFits hSteady hFirst) hRest

omit [RandomSource ρ] in
theorem Fits.works_start (hFits : own.Fits peer setting) (data : L) (policy : RetryPolicy) :
    own.Works (.start own.table data policy) where
  table := rfl
  live := rfl
  outbound := by
    have hGreeting := hFits.start.2
    simp only [Machine.start, hGreeting]
    rfl

/-- A party that keeps pace is in step with the relay until it stops. -/
theorem Paced.inStep (h : own.Paced seat) (hFits : own.Fits peer setting) (hSteady : own.Steady)
    (hLive : seat.participant.halted = false) (hGoing : seat.failure = none) : InStep seat := by
  cases h with
  | asks works sent => exact ⟨rfl, nofun, nofun, nofun⟩
  | @hears machine reply session works awaited =>
      have hReacts : ∀ source, own.Reacts machine (machine.onMessage source reply) :=
        works.reacts hFits hSteady awaited
      have hStep := hFits.step machine.state
      rw [← works.table] at hStep
      constructor
      case one => rfl
      case awaited =>
        intro message hMem
        obtain rfl := List.mem_singleton.mp hMem
        have hTrigger : (own.seat machine).trigger? = _ := hFits.view _ machine
        have hRetry : (own.seat machine).retryOn? = _ := hFits.view _ machine
        rw [hTrigger, hRetry, hStep]
        exact awaited.imp (congrArg some ·.symm) id
      case noticed =>
        intro message hMem source
        obtain rfl := List.mem_singleton.mp hMem
        have hReact := hReacts source
        rw [hFits.onMessage]
        generalize machine.onMessage source message = delivery at hReact
        cases hReact <;> simp [Participant.receipt]
      case resends =>
        intro message hMem source again hAgain
        obtain rfl := List.mem_singleton.mp hMem
        have hReact := hReacts source
        rw [hFits.onMessage] at hAgain
        generalize machine.onMessage source message = delivery at hReact hAgain
        cases hReact with
        | resends sent request =>
            obtain ⟨kind, hTag⟩ := request
            obtain rfl := Reaction.resend.inj (Except.ok.inj hAgain)
            exact ⟨⟨kind, hTag⟩, fun relay source session =>
              Relay.dispatch_reading source session (by rw [hTag]; rfl) (by simp [hTag])⟩
        | sends => cases hAgain
        | halts => cases hAgain
        | fails => cases hAgain
  | @stopped _ machine participant stops =>
      have hView : (own.seat machine).halted = machine.halted := hFits.view _ machine
      rcases stops with hHalted | hFailed
      · rw [participant, hView, hHalted] at hLive
        cases hLive
      · rw [hGoing] at hFailed
        cases hFailed

/-- A participant that has just connected to a running relay is in step from then on, whatever
happens, until it stops. -/
theorem Fits.inStep (hFits : own.Fits peer setting) (hSteady : own.Steady) (data : L)
    (policy : RetryPolicy) {session : SessionId} (hContext : exchange.relay.context.IsGenerated)
    (hRunning : ∃ store, exchange.relay.server = .running store)
    (hSeat : exchange.seats[i]? =
      some { participant := own.seat (.start own.table data policy), session })
    {events : List Event} (hFollow : exchange.follow? events = some after) :
    ∃ seat, after.seats[i]? = some seat ∧
      (seat.participant.halted = false → seat.failure = none → InStep seat) := by
  have hAwaits : (own.errand own.table.initial).Awaits .serverAccept := by
    rw [hFits.start.2]
    exact .inl rfl
  have hStart : own.Goes i exchange :=
    ⟨hContext, hRunning, _, hSeat, .hears (hFits.works_start data policy) hAwaits⟩
  obtain ⟨seat, hNow, hPaced⟩ := (hStart.follow hFits hSteady hFollow).paced
  exact ⟨seat, hNow, hPaced.inStep hFits hSteady⟩

end Conduct

end Exchange

end CipherRelay
