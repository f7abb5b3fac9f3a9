import CipherRelay.Proofs.Exchange.Steps
/-!
Runs. Any number of events may happen in any order; only what outsiders write in the session of the
two parties is excluded. Along every run both parties stay at marks of their courses, each mark
follows the ones before, and the seats and the mailbox are as the conducts say.
-/
namespace CipherRelay.Exchange

open Party Scheme

variable {ρ : Type}

theorem take?_eq_some {seat rest : Seat ρ} {message : Message}
    (h : seat.take? none = some (message, rest)) :
    ∃ inbox, seat.inbox = message :: inbox ∧ rest = { seat with inbox } := by
  unfold Seat.take? at h
  split at h
  · cases h
  · cases hInbox : seat.inbox with
    | nil => simp [hInbox] at h
    | cons first inbox =>
        simp only [hInbox, Option.some.injEq, Prod.mk.injEq] at h
        exact ⟨inbox, by rw [h.1], h.2.symm⟩

/-- A participant that receives takes the first message of its inbox, and what it answers goes to
the end of its outbox. -/
theorem receive?_eq_some {exchange after : Exchange ρ} {i : Nat}
    (h : (exchange.receive? i none).map (·.2) = some after) :
    ∃ seat message inbox, exchange.seats[i]? = some seat ∧ seat.inbox = message :: inbox ∧
      after = ⟨exchange.relay, (seat.participant.onMessage exchange.source message).source,
        exchange.seats.set i ({ seat with inbox }.settle
          (seat.participant.onMessage exchange.source message).participant
          (seat.participant.onMessage exchange.source message).outcome)⟩ := by
  obtain ⟨⟨turn, result⟩, hReceive, rfl⟩ := Option.map_eq_some_iff.mp h
  simp only [receive?, Option.bind_eq_bind, Option.bind_eq_some_iff, Option.pure_def,
    Option.some.injEq, Prod.mk.injEq] at hReceive
  obtain ⟨seat, hSeat, ⟨message, rest⟩, hTake, -, rfl⟩ := hReceive
  obtain ⟨inbox, hInbox, rfl⟩ := take?_eq_some hTake
  exact ⟨seat, message, inbox, hSeat, hInbox, rfl⟩

variable [RandomSource ρ]

/-- The relay serves the first message of an outbox, and its reply goes to the end of the inbox. -/
theorem serve?_eq_some {exchange after : Exchange ρ} {i : Nat}
    (h : (exchange.serve? i).map (·.2) = some after) :
    ∃ seat message outbox, exchange.seats[i]? = some seat ∧ seat.outbox = message :: outbox ∧
      after = ⟨(exchange.relay.dispatch exchange.source seat.session message).relay,
        (exchange.relay.dispatch exchange.source seat.session message).source,
        exchange.seats.set i ({ seat with outbox }.enqueue
          (exchange.relay.dispatch exchange.source seat.session message).response)⟩ := by
  obtain ⟨⟨response, result⟩, hServe, rfl⟩ := Option.map_eq_some_iff.mp h
  simp only [serve?, Option.bind_eq_bind, Option.bind_eq_some_iff] at hServe
  obtain ⟨seat, hSeat, hServe⟩ := hServe
  cases hOutbox : seat.outbox with
  | nil => simp [hOutbox] at hServe
  | cons message outbox =>
      simp only [hOutbox, Option.pure_def, Option.some.injEq, Prod.mk.injEq] at hServe
      obtain ⟨-, rfl⟩ := hServe
      exact ⟨seat, message, outbox, hSeat, hOutbox, rfl⟩

/-- Whether an event is not a message by which an outsider writes in a session. -/
def Event.Harmless (session : SessionId) : Event → Prop
  | .receive _ | .serve _ => True
  | .outside other message => session ≠ other ∨ message.tag.writes = false

instance (session : SessionId) (event : Event) : Decidable (event.Harmless session) :=
  match event with
  | .receive _ | .serve _ => inferInstanceAs (Decidable True)
  | .outside other message =>
      inferInstanceAs (Decidable (session ≠ other ∨ message.tag.writes = false))

/-- Events that lead from one exchange to another one, where no outsider writes in a session. -/
inductive Runs (session : SessionId) (start : Exchange ρ) : List Event → Exchange ρ → Prop
  | refl : Runs session start [] start
  | step {events : List Event} {exchange after : Exchange ρ} {event : Event}
      (earlier : Runs session start events exchange) (harmless : event.Harmless session)
      (last : exchange.step? event = some after) : Runs session start (events ++ [event]) after

/-- A run may be continued by another one. -/
theorem Runs.trans {session : SessionId} {first second third : Exchange ρ}
    {events events' : List Event} (h : Runs session first events second)
    (h' : Runs session second events' third) :
    Runs session first (events ++ events') third := by
  induction h' with
  | refl => rwa [List.append_nil]
  | step _ harmless last ih =>
      rw [← List.append_assoc]
      exact .step ih harmless last

/-- The exchange after several events, if they are possible one after another. -/
def follow? (start : Exchange ρ) (events : List Event) : Option (Exchange ρ) :=
  events.foldlM (fun exchange event => exchange.step? event) start

theorem exists_of_follow?_cons {start exchange : Exchange ρ} {event : Event} {rest : List Event}
    (h : start.follow? (event :: rest) = some exchange) :
    ∃ next, start.step? event = some next ∧ next.follow? rest = some exchange := by
  rw [follow?, List.foldlM_cons] at h
  exact Option.bind_eq_some_iff.mp h

/-- Harmless events that can be followed are a run. -/
theorem runs_of_follow? {session : SessionId} {events : List Event} {start exchange : Exchange ρ}
    (hHarmless : ∀ event ∈ events, event.Harmless session)
    (h : start.follow? events = some exchange) : Runs session start events exchange := by
  induction events generalizing start with
  | nil =>
      cases h
      exact .refl
  | cons event rest ih =>
      obtain ⟨next, hFirst, hRest⟩ := exists_of_follow?_cons h
      have hNext : Runs session start [event] next :=
        .step .refl (hHarmless event List.mem_cons_self) hFirst
      exact hNext.trans (ih (fun other hMem => hHarmless other (List.mem_cons_of_mem _ hMem)) hRest)

/-- The events of a run can be followed. -/
theorem Runs.follow? {session : SessionId} {events : List Event} {start exchange : Exchange ρ}
    (h : Runs session start events exchange) : start.follow? events = some exchange := by
  induction h with
  | refl => rfl
  | step _ _ last ih =>
      rw [Exchange.follow?] at ih ⊢
      rw [List.foldlM_append, ih]
      simpa using last

/-- Events that lead to an exchange with a property are a run to one. -/
theorem exists_runs {session : SessionId} {events : List Event} {start : Exchange ρ}
    (hHarmless : ∀ event ∈ events, event.Harmless session) {P : Exchange ρ → Bool}
    (h : (start.follow? events).any P) :
    ∃ exchange, Runs session start events exchange ∧ P exchange := by
  obtain ⟨exchange, hFollow, hHolds⟩ := (Option.any_eq_true _ _).mp h
  exact ⟨exchange, runs_of_follow? hHarmless hFollow, hHolds⟩

/-- Somebody takes a message and the relay takes the answer, several times over. -/
def turns (seat count : Nat) : List Event :=
  (List.replicate count [.receive seat, .serve seat]).flatten

def halted (exchange : Exchange ρ) : Bool :=
  exchange.seats.all fun seat => seat.participant.halted

/-- An exchange in which two participants have just connected, and nothing is in their session. All
other seats belong to other sessions. -/
structure Opens (cc : Context) (session : SessionId) (first second : Participant ρ)
    (start : Exchange ρ) : Prop where
  context : start.relay.context = cc
  empty : ∃ store, start.relay.server = .running store ∧ ∀ kind, store.get? session kind = none
  seats : ∃ others, start.seats =
      { participant := first, session } :: { participant := second, session } :: others ∧
    ∀ other ∈ others, other.session ≠ session

/-- Two participants connect to a relay with an empty mailbox. -/
def opening (cc : Context) (session : SessionId) (first second : Participant ρ) (source : ρ) :
    Exchange ρ where
  relay := ⟨cc, .start⟩
  source := source
  seats := [{ participant := first, session }, { participant := second, session }]

omit [RandomSource ρ] in
/-- The opening of two participants is such that nothing has happened yet. -/
theorem opens_opening (cc : Context) (session : SessionId) (first second : Participant ρ)
    (source : ρ) : Opens cc session first second (opening cc session first second source) :=
  ⟨rfl, ⟨.empty, rfl, fun _ => rfl⟩, [], rfl, fun _ hMem => (List.not_mem_nil hMem).elim⟩

/-- Among the events that lead from one exchange to another one the relay takes the leave of a role
from a seat. -/
def TakesLeave (session : SessionId) (start : Exchange ρ) (events : List Event)
    (exchange : Exchange ρ) (i : Nat) (role : Role) : Prop :=
  ∃ before after middle next seat rest, events = before ++ .serve i :: after ∧
    Runs session start before middle ∧ middle.seats[i]? = some seat ∧
    seat.outbox = .disconnect role :: rest ∧ middle.step? (.serve i) = some next ∧
    Runs session next after exchange

/-- A leave that the relay has taken stays taken as events follow. -/
theorem TakesLeave.step {session : SessionId} {start exchange after : Exchange ρ}
    {events : List Event} {event : Event} {i : Nat} {role : Role}
    (h : TakesLeave session start events exchange i role) (harmless : event.Harmless session)
    (last : exchange.step? event = some after) :
    TakesLeave session start (events ++ [event]) after i role := by
  obtain ⟨before, later, middle, next, seat, rest, rfl, hBefore, hSeat, hOutbox, hServe,
    hLater⟩ := h
  exact ⟨before, later ++ [event], middle, next, seat, rest, by simp, hBefore, hSeat, hOutbox,
    hServe, .step hLater harmless last⟩

namespace Conduct

variable {D S L S' L' : Type} {own : Conduct D S L ρ} {peer : Conduct D S' L' ρ}
  {setting : Setting D} {d d' : D} {mark mark' next : Mark} {i j : Nat}
  {exchange after : Exchange ρ}

/-- An exchange in which two seats are those of two parties at their marks; all others belong to
other sessions. -/
structure Holds (own : Conduct D S L ρ) (peer : Conduct D S' L' ρ) (setting : Setting D) (d : D)
    (mark mark' : Mark) (i j : Nat) (exchange : Exchange ρ) : Prop where
  shared : own.Shared peer setting d mark mark' exchange.relay
  apart : i ≠ j
  seat : ∃ seat, exchange.seats[i]? = some seat ∧ own.Sits setting d mark seat
  seat' : ∃ seat, exchange.seats[j]? = some seat ∧ peer.Sits setting d mark' seat
  others : ∀ k seat, exchange.seats[k]? = some seat → k ≠ i → k ≠ j →
    seat.session ≠ setting.session

omit [RandomSource ρ] in
theorem Sits.session {seat : Seat ρ} (h : own.Sits setting d mark seat) :
    seat.session = setting.session := by
  cases mark with
  | asks i =>
      obtain ⟨s, message, policy, attempts, -, -, -, rfl⟩ := h
      rfl
  | hears i succeeds =>
      obtain ⟨s, reply, policy, attempts, -, -, rfl⟩ := h
      rfl
  | failed i succeeds =>
      obtain ⟨s, policy, attempts, data, failure, -, -, rfl⟩ := h
      rfl
  | leaves | left =>
      obtain ⟨machine, -, -, rfl⟩ := h
      rfl

omit [RandomSource ρ] in
/-- Which of the two participants is named first does not matter. -/
theorem Holds.symm (h : own.Holds peer setting d mark mark' i j exchange) :
    peer.Holds own setting d mark' mark j i exchange :=
  ⟨h.shared.symm, h.apart.symm, h.seat', h.seat, fun k seat hSeat hj hi =>
    h.others k seat hSeat hi hj⟩

omit [RandomSource ρ] in
theorem Holds.sits (h : own.Holds peer setting d mark mark' i j exchange) {seat : Seat ρ}
    (hSeat : exchange.seats[i]? = some seat) : own.Sits setting d mark seat := by
  obtain ⟨now, hNow, hSits⟩ := h.seat
  rw [hSeat] at hNow
  exact Option.some.inj hNow ▸ hSits

omit [RandomSource ρ] in
theorem Holds.sits' (h : own.Holds peer setting d mark mark' i j exchange) {seat : Seat ρ}
    (hSeat : exchange.seats[j]? = some seat) : peer.Sits setting d mark' seat :=
  h.symm.sits hSeat

omit [RandomSource ρ] in
/-- A participant may go on as long as both agree with what the relay holds by then. -/
theorem Holds.update (h : own.Holds peer setting d mark mark' i j exchange) {relay : Relay}
    {source : ρ} {changed : Seat ρ} (hShared : own.Shared peer setting d' next mark' relay)
    (hOwn : own.Sits setting d' next changed)
    (hPeer : ∀ seat', exchange.seats[j]? = some seat' → peer.Sits setting d' mark' seat') :
    own.Holds peer setting d' next mark' i j ⟨relay, source, exchange.seats.set i changed⟩ := by
  obtain ⟨seat, hSeat, -⟩ := h.seat
  obtain ⟨seat', hSeat', -⟩ := h.seat'
  have hLt := (List.getElem?_eq_some_iff.mp hSeat).1
  refine ⟨hShared, h.apart, ⟨changed, List.getElem?_set_self hLt, hOwn⟩,
    ⟨seat', ?_, hPeer seat' hSeat'⟩, fun k other hOther hi hj => h.others k other ?_ hi hj⟩
  · rwa [List.getElem?_set_ne h.apart]
  · rwa [List.getElem?_set_ne (Ne.symm hi)] at hOther

omit [RandomSource ρ] in
/-- Somebody else may go on as long as the session of the two is left alone. -/
theorem Holds.other (h : own.Holds peer setting d mark mark' i j exchange) {k : Nat}
    {relay : Relay} {source : ρ} {seat changed : Seat ρ} (hi : k ≠ i) (hj : k ≠ j)
    (hSeat : exchange.seats[k]? = some seat) (hSession : changed.session = seat.session)
    (hRelay : seat.session ≠ setting.session →
      own.Shared peer setting d mark mark' relay) :
    own.Holds peer setting d mark mark' i j ⟨relay, source, exchange.seats.set k changed⟩ := by
  have hElsewhere := h.others k seat hSeat hi hj
  refine ⟨hRelay hElsewhere, h.apart, ?_, ?_, fun k' other hOther hi' hj' => ?_⟩
  · simpa only [List.getElem?_set_ne hi] using h.seat
  · simpa only [List.getElem?_set_ne hj] using h.seat'
  · by_cases hSame : k = k'
    · subst hSame
      rw [List.getElem?_set_self (List.getElem?_eq_some_iff.mp hSeat).1] at hOther
      rw [← Option.some.inj hOther, hSession]
      exact hElsewhere
    · rw [List.getElem?_set_ne hSame] at hOther
      exact h.others k' other hOther hi' hj'

/-- Messages of other sessions, and messages that write nothing, leave what the two share. -/
theorem Shared.outside {relay : Relay} (h : own.Shared peer setting d mark mark' relay)
    {session : SessionId} {message : Message}
    (hHarmless : setting.session ≠ session ∨ message.tag.writes = false) (source : ρ) :
    own.Shared peer setting d mark mark' (relay.dispatch source session message).relay := by
  obtain ⟨store, hServer, hSlots⟩ := h.slots
  obtain ⟨hContext, after, hAfter, hSame⟩ := Relay.dispatch_outside hServer source session message
  refine ⟨hContext.trans h.context, ⟨after, hAfter, fun kind bytes => ?_⟩, h.earned, h.earned',
    h.feasible⟩
  rw [hSame _ hHarmless, hSlots]

variable [DecidableEq S] [ToString S] [DecidableEq S'] [ToString S']

omit [RandomSource ρ] [DecidableEq S'] [ToString S'] in
/-- A party that has just connected has done nothing but to be greeted. -/
theorem Fits.eq_greeting (h : own.Fits peer setting) {errand : Errand}
    (hMem : errand ∈ own.course.take ((Mark.hears 0 true).done own.course)) :
    errand = .greeting := by
  have hAt := getElem?_course h.start.1
  rw [Mark.done, Bool.toNat_true, mem_take_succ hAt] at hMem
  simpa [h.start.2] using hMem

/-- Nothing has been handed over when both parties have just connected. -/
theorem Partners.store_not_mem (h : own.Partners peer setting) (kind : ArtifactKind) :
    .store kind ∉ given own.course peer.course (.hears 0 true) (.hears 0 true) := by
  intro hMem
  rcases List.mem_append.mp hMem with hOwn | hPeer
  · cases h.fits.eq_greeting hOwn
  · cases h.fits'.eq_greeting hPeer

/-- Both parties are at their first marks when they have just connected and nothing is in their
session. -/
theorem Partners.holds_of_connected (h : own.Partners peer setting) (d : D)
    {policy policy' : RetryPolicy} (hContext : exchange.relay.context = setting.context)
    (hEmpty : ∃ store, exchange.relay.server = .running store ∧
      ∀ kind, store.get? setting.session kind = none) (hApart : i ≠ j)
    (hSeat : exchange.seats[i]? =
      some { participant := own.starting d policy, session := setting.session })
    (hSeat' : exchange.seats[j]? =
      some { participant := peer.starting d policy', session := setting.session })
    (hOthers : ∀ k seat, exchange.seats[k]? = some seat → k ≠ i → k ≠ j →
      seat.session ≠ setting.session) :
    own.Holds peer setting d (.hears 0 true) (.hears 0 true) i j exchange := by
  obtain ⟨store, hServer, hStore⟩ := hEmpty
  refine ⟨⟨hContext, ⟨store, hServer, fun kind bytes => ?_⟩, ?_, ?_,
      fun kind hMem => absurd hMem (h.store_not_mem kind)⟩, hApart,
    ⟨_, hSeat, h.fits.sits_starting d policy⟩, ⟨_, hSeat', h.fits'.sits_starting d policy'⟩,
    hOthers⟩
  · rw [hStore]
    constructor
    · intro hNone
      cases hNone
    · intro hPresent
      exact absurd hPresent.1.mem_given (h.store_not_mem kind)
  · intro errand hMem
    rw [h.fits.eq_greeting hMem]
    trivial
  · intro errand hMem
    rw [h.fits'.eq_greeting hMem]
    trivial

/-- Both parties are at their first marks in an exchange that opens. -/
theorem Partners.holds_of_opens (h : own.Partners peer setting) (d : D)
    {policy policy' : RetryPolicy}
    (hOpens : Opens setting.context setting.session (own.starting d policy)
      (peer.starting d policy') exchange) :
    own.Holds peer setting d (.hears 0 true) (.hears 0 true) 0 1 exchange := by
  obtain ⟨hContext, hEmpty, others, hSeats, hOthers⟩ := hOpens
  refine h.holds_of_connected d hContext hEmpty Nat.zero_ne_one (by rw [hSeats]; rfl)
    (by rw [hSeats]; rfl) fun k seat hSeat hi hj => ?_
  obtain ⟨k, rfl⟩ : ∃ m, k = m + 2 := ⟨k - 2, by omega⟩
  rw [hSeats] at hSeat
  exact hOthers seat (List.mem_of_getElem? hSeat)

/-- An event at a party's own seat moves its mark and leaves the other one's. -/
theorem Partners.step_own (h : own.Partners peer setting)
    (hHolds : own.Holds peer setting d mark mark' i j exchange) {event : Event}
    (hEvent : event = .receive i ∨ event = .serve i) (hStep : exchange.step? event = some after) :
    ∃ d' next, mark.Moves own.course i event next ∧
      own.Holds peer setting d' next mark' i j after := by
  obtain ⟨seat', hSeat', hSits'⟩ := hHolds.seat'
  have hPeer : ∀ {d'}, peer.Sits setting d' mark' seat' →
      ∀ other, exchange.seats[j]? = some other → peer.Sits setting d' mark' other := by
    intro d' hSits' other hOther
    rw [hSeat'] at hOther
    exact Option.some.inj hOther ▸ hSits'
  rcases hEvent with rfl | rfl
  · obtain ⟨taker, message, inbox, hTaker, hInbox, rfl⟩ := receive?_eq_some hStep
    obtain ⟨d', next, hHeard, hOwn, hSits', hShared⟩ :=
      h.receive hHolds.shared (hHolds.sits hTaker) hSits' hInbox exchange.source
    exact ⟨d', next, .heard hHeard, hHolds.update hShared hOwn (hPeer hSits')⟩
  · obtain ⟨sender, message, outbox, hSender, hOutbox, rfl⟩ := serve?_eq_some hStep
    obtain ⟨d', next, hServed, hOwn, hSits', hShared⟩ :=
      h.serve hHolds.shared (hHolds.sits hSender) hSits' hOutbox exchange.source
    exact ⟨d', next, .served hServed, hHolds.update hShared hOwn (hPeer hSits')⟩

omit [DecidableEq S] [ToString S] [DecidableEq S'] [ToString S'] in
/-- An event elsewhere changes nothing for the two parties. -/
theorem Holds.step_elsewhere (h : own.Holds peer setting d mark mark' i j exchange) {event : Event}
    (hHarmless : event.Harmless setting.session) (hi : event ≠ .receive i ∧ event ≠ .serve i)
    (hj : event ≠ .receive j ∧ event ≠ .serve j) (hStep : exchange.step? event = some after) :
    own.Holds peer setting d mark mark' i j after := by
  cases event with
  | receive k =>
      obtain ⟨taker, message, inbox, hTaker, hInbox, rfl⟩ := receive?_eq_some hStep
      refine h.other (by simpa using hi) (by simpa using hj) hTaker ?_ fun _ => h.shared
      cases (taker.participant.onMessage exchange.source message).outcome <;> rfl
  | serve k =>
      obtain ⟨sender, message, outbox, hSender, hOutbox, rfl⟩ := serve?_eq_some hStep
      refine h.other (by simpa using hi) (by simpa using hj) hSender ?_ fun hElsewhere =>
        h.shared.outside (.inl hElsewhere.symm) _
      cases (exchange.relay.dispatch exchange.source sender.session message).response <;> rfl
  | outside session message =>
      cases hStep
      exact ⟨h.shared.outside hHarmless _, h.apart, h.seat, h.seat', h.others⟩

/-- Every event moves the marks of both parties. -/
theorem Partners.step (h : own.Partners peer setting)
    (hHolds : own.Holds peer setting d mark mark' i j exchange) {event : Event}
    (hHarmless : event.Harmless setting.session) (hStep : exchange.step? event = some after) :
    ∃ d' next next', mark.Moves own.course i event next ∧ mark'.Moves peer.course j event next' ∧
      own.Holds peer setting d' next next' i j after := by
  by_cases hi : event = .receive i ∨ event = .serve i
  · obtain ⟨d', next, hMoves, hHolds'⟩ := h.step_own hHolds hi hStep
    refine ⟨d', next, mark', hMoves, .stays _ ?_ ?_, hHolds'⟩ <;>
      rcases hi with rfl | rfl <;> simp [hHolds.apart]
  by_cases hj : event = .receive j ∨ event = .serve j
  · obtain ⟨d', next, hMoves, hHolds'⟩ := h.symm.step_own hHolds.symm hj hStep
    exact ⟨d', mark, next, .stays _ (not_or.mp hi).1 (not_or.mp hi).2, hMoves, hHolds'.symm⟩
  · exact ⟨d, mark, mark', .stays _ (not_or.mp hi).1 (not_or.mp hi).2,
      .stays _ (not_or.mp hj).1 (not_or.mp hj).2,
      hHolds.step_elsewhere hHarmless (not_or.mp hi) (not_or.mp hj) hStep⟩

omit [RandomSource ρ] [DecidableEq S] [ToString S] in
/-- Whoever takes leave has nothing to say but the farewell. -/
theorem Sits.outbox_of_leaves {seat : Seat ρ} (h : own.Sits setting d .leaves seat) :
    seat.outbox = [.disconnect own.role] := by
  obtain ⟨machine, -, -, rfl⟩ := h
  rfl

/-- Along a run both parties stay at marks of their courses. A party has left only if the relay has
taken its leave. -/
theorem Partners.runs (h : own.Partners peer setting)
    (hHolds : own.Holds peer setting d mark mark' i j exchange) {events : List Event}
    (hRuns : Runs setting.session exchange events after) :
    ∃ d' next next', mark.Follows own.course next ∧ mark'.Follows peer.course next' ∧
      own.Holds peer setting d' next next' i j after ∧
      (next = .left → mark = .left ∨
        TakesLeave setting.session exchange events after i own.role) := by
  -- By induction on the run. The invariant is `Holds`; the draws in it change as they are made.
  induction hRuns with
  | refl => exact ⟨d, mark, mark', .refl _ _, .refl _ _, hHolds, .inl⟩
  | step earlier harmless last ih =>
      obtain ⟨d', next, next', hFollows, hFollows', hHolds', hTaken⟩ := ih
      obtain ⟨d'', later, later', hMoves, hMoves', hHolds''⟩ := h.step hHolds' harmless last
      obtain ⟨seat, hSeat, hSits⟩ := hHolds'.seat
      refine ⟨d'', later, later', hFollows.trans hMoves.follows, hFollows'.trans hMoves'.follows,
        hHolds'', ?_⟩
      intro hGone
      rcases hMoves.eq_left_iff.mp hGone with hBefore | ⟨rfl, rfl⟩
      · exact (hTaken hBefore).imp_right fun hTakes => hTakes.step harmless last
      · exact .inr ⟨_, [], _, _, seat, [], rfl, earlier, hSeat, hSits.outbox_of_leaves, last,
          .refl⟩

end Conduct

end CipherRelay.Exchange
