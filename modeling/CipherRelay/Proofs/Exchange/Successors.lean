import CipherRelay.Proofs.Exchange.Deposits
import CipherRelay.Proofs.Exchange.Leaving
import CipherRelay.Proofs.Relay.Remnants
/-!
Successors. Others may connect in a session as soon as the two participants that were there have
halted. The second one's leave, which nobody acknowledges, may still be on its way to the relay
then. If the relay takes it before it takes a message of the others about a slot that it clears,
then for them everything is as if it had been taken before they connected.
-/
namespace CipherRelay.Exchange

open Party Scheme

variable {ρ : Type} {session : SessionId}

/-- More participants connect in a session. -/
def connect (exchange : Exchange ρ) (session : SessionId) (participants : List (Participant ρ)) :
    Exchange ρ :=
  { exchange with
    seats := exchange.seats ++ participants.map fun participant => { participant, session } }

/-- The tag of the next message on its way to the relay from a seat of a session. -/
def next? (exchange : Exchange ρ) (session : SessionId) (i : Nat) : Option Tag := do
  let seat ← exchange.seats[i]?
  let message ← seat.outbox.head?
  if seat.session = session then some message.tag else none

/-- Whether the second participant is about to clear the slot of a kind. -/
def clearing (exchange : Exchange ρ) (session : SessionId) (kind : ArtifactKind) : Bool :=
  (exchange.next? session 1).any fun tag => tag.clears kind

/-- Whether the relay takes a later participant's message about a slot that the second participant
is about to clear. -/
def overtakes (exchange : Exchange ρ) (session : SessionId) : Event → Bool
  | .serve i => 2 ≤ i && (exchange.next? session i).any fun tag =>
      tag.slots.any (exchange.clearing session)
  | .receive _ | .outside _ _ => false

/-- What a later participant sees of an exchange if it takes the relay for another one. -/
def successors (exchange : Exchange ρ) (seen : Relay) : Exchange ρ :=
  ⟨seen, exchange.source, exchange.seats.drop 2⟩

theorem next?_eq {exchange : Exchange ρ} {i : Nat} {seat : Seat ρ} {message : Message}
    {outbox : List Message} (hSeat : exchange.seats[i]? = some seat)
    (hOutbox : seat.outbox = message :: outbox) :
    exchange.next? session i = if seat.session = session then some message.tag else none := by
  simp [next?, hSeat, hOutbox]

theorem clearing_eq {exchange : Exchange ρ} {seat : Seat ρ} {message : Message}
    {outbox : List Message} (hSeat : exchange.seats[1]? = some seat)
    (hOutbox : seat.outbox = message :: outbox) :
    exchange.clearing seat.session = message.tag.clears := by
  funext kind
  simp [clearing, next?_eq hSeat hOutbox]

/-- What is about to be cleared depends on the second participant only. -/
theorem clearing_congr {exchange after : Exchange ρ}
    (h : after.seats[1]? = exchange.seats[1]?) :
    after.clearing session = exchange.clearing session := by
  funext kind
  rw [clearing, next?, h, clearing, next?]

theorem successors_set (exchange : Exchange ρ) (relay seen : Relay) (source : ρ) (k : Nat)
    (seat : Seat ρ) :
    successors ⟨relay, source, exchange.seats.set (k + 2) seat⟩ seen =
      ⟨seen, source, (exchange.successors seen).seats.set k seat⟩ := by
  simp [successors, List.drop_set]

variable [RandomSource ρ]

/-- Whether the relay takes such a message at any of several events. -/
def overtaken (start : Exchange ρ) (session : SessionId) : List Event → Bool
  | [] => false
  | event :: rest => start.overtakes session event ||
      match start.step? event with
      | some next => next.overtaken session rest
      | none => false

/-- Somebody is overtaken early or late. -/
theorem overtaken_append {start exchange : Exchange ρ} {events : List Event}
    (h : start.follow? events = some exchange) (later : List Event) :
    start.overtaken session (events ++ later) =
      (start.overtaken session events || exchange.overtaken session later) := by
  induction events generalizing start with
  | nil =>
      cases h
      rfl
  | cons event rest ih =>
      obtain ⟨next, hFirst, hRest⟩ := exists_of_follow?_cons h
      simp only [List.cons_append, overtaken, hFirst, ih hRest, Bool.or_assoc]

theorem Runs.overtaken {start exchange after : Exchange ρ} {events : List Event} {event : Event}
    (h : Runs session start events exchange) (last : exchange.step? event = some after) :
    start.overtaken session (events ++ [event]) =
      (start.overtaken session events || exchange.overtakes session event) := by
  rw [overtaken_append h.follow?]
  simp only [Exchange.overtaken, last, Bool.or_false]

theorem step?_serve {exchange : Exchange ρ} {i : Nat} {seat : Seat ρ} {message : Message}
    {outbox : List Message} (hSeat : exchange.seats[i]? = some seat)
    (hOutbox : seat.outbox = message :: outbox) :
    exchange.step? (.serve i) = some
      ⟨(exchange.relay.dispatch exchange.source seat.session message).relay,
        (exchange.relay.dispatch exchange.source seat.session message).source,
        exchange.seats.set i ({ seat with outbox }.enqueue
          (exchange.relay.dispatch exchange.source seat.session message).response)⟩ := by
  simp [step?, serve?, dispatch, setSeat, hSeat, hOutbox]

/-- What a successor receives does not depend on those before it. -/
theorem step?_successors_receive (exchange : Exchange ρ) (seen : Relay) (k : Nat) :
    (exchange.successors seen).step? (.receive k) =
      (exchange.step? (.receive (k + 2))).map (·.successors seen) := by
  simp only [step?, receive?, successors, List.getElem?_drop, Nat.add_comm 2 k]
  cases exchange.seats[k + 2]? with
  | none => rfl
  | some seat =>
      cases hTake : seat.take? none with
      | none => simp [hTake]
      | some taken => simp [hTake, setSeat, List.drop_set]

/-- One event or none, whatever is drawn by it. -/
inductive Stutters (session : SessionId) (start : Exchange ρ) : Exchange ρ → Prop
  | stays (source : ρ) : Stutters session start { start with source }
  | steps {event : Event} {after : Exchange ρ} (harmless : event.Harmless session)
      (last : start.step? event = some after) (source : ρ) :
      Stutters session start { after with source }

/-- The first two participants have nothing to do any more but that the second one may have a leave
on its way. Some relay is like one that has taken it. -/
structure Lingers (session : SessionId) (seen : Relay) (exchange : Exchange ρ) : Prop where
  idle : ∀ i < 2, ∃ seat, exchange.seats[i]? = some seat ∧ seat.session = session ∧
    seat.inbox = [] ∧ (seat.outbox = [] ∨ i = 1 ∧ ∃ role, seat.outbox = [.disconnect role])
  cleared : Relay.Cleared session (exchange.clearing session) exchange.relay seen

namespace Lingers

variable {seen : Relay} {exchange after start : Exchange ρ} {event : Event} {events : List Event}
  {i k : Nat}

omit [RandomSource ρ] in
/-- As long as the first two stay as they are, only the relay matters. -/
theorem of_seats (h : Lingers session seen exchange)
    (hSeats : ∀ i < 2, after.seats[i]? = exchange.seats[i]?) {seen' : Relay}
    (hCleared : Relay.Cleared session (exchange.clearing session) after.relay seen') :
    Lingers session seen' after :=
  ⟨fun i hi => hSeats i hi ▸ h.idle i hi, clearing_congr (hSeats 1 (by decide)) ▸ hCleared⟩

/-- Nothing is on its way to the first two participants. -/
theorem receive (h : Lingers session seen exchange)
    (hStep : exchange.step? (.receive i) = some after) :
    (∀ i < 2, after.seats[i]? = exchange.seats[i]?) ∧ after.relay = exchange.relay ∧
      ∃ k, (exchange.successors seen).step? (.receive k) = some (after.successors seen) := by
  obtain ⟨seat, message, inbox, hSeat, hInbox, hAfter⟩ := receive?_eq_some hStep
  have hLate : 2 ≤ i := by
    by_contra hEarly
    obtain ⟨idle, hIdle, -, hEmpty, -⟩ := h.idle i (by omega)
    rw [hSeat, Option.some.injEq] at hIdle
    rw [hIdle, hEmpty] at hInbox
    cases hInbox
  obtain ⟨k, rfl⟩ := Nat.exists_eq_add_of_le' hLate
  refine ⟨fun i hi => ?_, by rw [hAfter], k, ?_⟩
  · rw [hAfter, List.getElem?_set_ne (by omega)]
  · rw [step?_successors_receive, hStep]
    rfl

/-- The relay can take nothing of the first two participants but the second one's leave. -/
theorem leave (h : Lingers session seen exchange) (hEarly : i < 2)
    (hStep : exchange.step? (.serve i) = some after) :
    ∃ seat role, i = 1 ∧ exchange.seats[1]? = some seat ∧ seat.session = session ∧
      seat.inbox = [] ∧ seat.outbox = [.disconnect role] ∧
      after = ⟨(exchange.relay.dispatch exchange.source session (.disconnect role)).relay,
        exchange.source, exchange.seats.set 1 { seat with outbox := [] }⟩ := by
  obtain ⟨seat, message, outbox, hSeat, hOutbox, hAfter⟩ := serve?_eq_some hStep
  obtain ⟨idle, hIdle, rfl, hInbox, hEmpty⟩ := h.idle i hEarly
  rw [hSeat, Option.some.injEq] at hIdle
  subst hIdle
  obtain ⟨rfl, role, hLeave⟩ := hEmpty.resolve_left (by simp [hOutbox])
  rw [hOutbox, List.cons.injEq] at hLeave
  obtain ⟨rfl, rfl⟩ := hLeave
  obtain ⟨-, store, -, hServer, -⟩ := h.cleared
  have hDispatch := Relay.dispatch_disconnect hServer exchange.source seat.session role
  refine ⟨seat, role, rfl, hSeat, rfl, hInbox, hOutbox, ?_⟩
  rw [hAfter, hDispatch]
  simp [Seat.enqueue]

/-- Once the relay has taken the leave, it is like the other one. -/
theorem left (h : Lingers session seen exchange) (hEarly : i < 2)
    (hStep : exchange.step? (.serve i) = some after) :
    Lingers session seen after ∧ (∀ kind, after.clearing session kind = false) ∧
      (exchange.successors seen).Stutters session (after.successors seen) := by
  obtain ⟨seat, role, -, hSeat, rfl, hInbox, hOutbox, rfl⟩ := h.leave hEarly hStep
  have hLt := (List.getElem?_eq_some_iff.mp hSeat).1
  have hLeft := List.getElem?_set_self (a := { seat with outbox := [] }) hLt
  have hNothing : ∀ kind, clearing
      ⟨(exchange.relay.dispatch exchange.source seat.session (.disconnect role)).relay,
        exchange.source, exchange.seats.set 1 { seat with outbox := [] }⟩
      seat.session kind = false := by
    intro kind
    simp [clearing, next?, hLeft]
  refine ⟨⟨fun i hi => ?_, ?_⟩, hNothing, ?_⟩
  · obtain rfl | rfl : i = 0 ∨ i = 1 := by omega
    · simpa using h.idle 0 (by decide)
    · exact ⟨_, hLeft, rfl, hInbox, .inl rfl⟩
  · rw [funext hNothing]
    exact (clearing_eq hSeat hOutbox ▸ h.cleared).leave rfl _
  · simp only [successors, List.drop_set_of_lt (Nat.one_lt_two)]
    exact .stays _

omit [RandomSource ρ] in
/-- What the relay takes in time is not about a slot that the second participant is about to
clear. -/
theorem untouched (hInTime : exchange.overtakes session (.serve (k + 2)) = false) {seat : Seat ρ}
    {message : Message} {outbox : List Message} (hSeat : exchange.seats[k + 2]? = some seat)
    (hOutbox : seat.outbox = message :: outbox) (hSession : session = seat.session) :
    ∀ kind ∈ message.tag.slots, exchange.clearing session kind = false := by
  simpa [overtakes, next?_eq hSeat hOutbox, hSession] using hInTime

/-- What the relay takes of a later participant in time it would have taken in the same way after
the leave. -/
theorem serve (h : Lingers session seen exchange)
    (hInTime : exchange.overtakes session (.serve (k + 2)) = false)
    (hStep : exchange.step? (.serve (k + 2)) = some after) :
    ∃ seen', Lingers session seen' after ∧ after.clearing session = exchange.clearing session ∧
      (exchange.successors seen).Stutters session (after.successors seen') := by
  obtain ⟨seat, message, outbox, hSeat, hOutbox, rfl⟩ := serve?_eq_some hStep
  have hUntouched := untouched hInTime hSeat hOutbox
  have hSeats : ∀ i < 2, ∀ changed, (exchange.seats.set (k + 2) changed)[i]? = exchange.seats[i]? :=
    fun i hi changed => List.getElem?_set_ne (by omega)
  have hView : (exchange.successors seen).seats[k]? = some seat := by
    rwa [successors, List.getElem?_drop, Nat.add_comm]
  refine ⟨(seen.dispatch exchange.source seat.session message).relay,
    h.of_seats (fun i hi => hSeats i hi _) ?_, clearing_congr (hSeats 1 (by decide) _), ?_⟩
  · refine h.cleared.dispatch (fun hSession kind hDeposit => ?_) _ _
    exact hUntouched hSession kind (Tag.mem_slots_of_deposit? hDeposit)
  · rw [successors_set, h.cleared.response hUntouched]
    exact .steps (show Event.Harmless session (.serve k) from trivial) (step?_serve hView hOutbox) _

/-- Nothing that others write in other sessions, or only read, makes a difference. -/
theorem outside (h : Lingers session seen exchange) {other : SessionId} {message : Message}
    (hHarmless : session ≠ other ∨ message.tag.writes = false)
    (hStep : exchange.step? (.outside other message) = some after) :
    ∃ seen', Lingers session seen' after ∧ after.clearing session = exchange.clearing session ∧
      (exchange.successors seen).Stutters session (after.successors seen') := by
  cases hStep
  have hReads : session = other → ∀ kind, message.tag.deposit? = some kind →
      exchange.clearing session kind = false := by
    intro hSession kind hDeposit
    rw [Tag.deposit?_of_writes (hHarmless.resolve_left (not_not_intro hSession))] at hDeposit
    cases hDeposit
  exact ⟨(seen.dispatch exchange.source other message).relay,
    ⟨h.idle, h.cleared.dispatch hReads _ _⟩, rfl,
    .steps (show Event.Harmless session (.outside other message) from hHarmless) rfl _⟩

/-- For the later participants an event is one of an exchange in which the leave has been taken, or
none at all. -/
theorem step (h : Lingers session seen exchange) (hHarmless : event.Harmless session)
    (hInTime : exchange.overtakes session event = false)
    (hStep : exchange.step? event = some after) :
    ∃ seen', Lingers session seen' after ∧
      (∀ kind, exchange.clearing session kind = false → after.clearing session kind = false) ∧
      (exchange.successors seen).Stutters session (after.successors seen') := by
  cases event with
  | receive i =>
      obtain ⟨hSeats, hRelay, k, hView⟩ := h.receive hStep
      refine ⟨seen, h.of_seats hSeats (hRelay ▸ h.cleared), fun kind hKept => ?_, ?_⟩
      · rwa [clearing_congr (hSeats 1 (by decide))]
      · exact .steps (show Event.Harmless session (.receive k) from trivial) hView _
  | serve i =>
      by_cases hEarly : i < 2
      · obtain ⟨hLingers, hNothing, hStutters⟩ := h.left hEarly hStep
        exact ⟨seen, hLingers, fun kind _ => hNothing kind, hStutters⟩
      · obtain ⟨k, rfl⟩ := Nat.exists_eq_add_of_le' (Nat.le_of_not_lt hEarly)
        obtain ⟨seen', hLingers, hClearing, hStutters⟩ := h.serve hInTime hStep
        exact ⟨seen', hLingers, fun kind => hClearing ▸ id, hStutters⟩
  | outside other message =>
      obtain ⟨seen', hLingers, hClearing, hStutters⟩ := h.outside hHarmless hStep
      exact ⟨seen', hLingers, fun kind => hClearing ▸ id, hStutters⟩

/-- What is stored in time is not about to be cleared. -/
theorem stored (h : Lingers session seen exchange) (hHarmless : event.Harmless session)
    (hInTime : exchange.overtakes session event = false)
    (hStep : exchange.step? event = some after) {kind : ArtifactKind}
    (hDeposit : exchange.deposit? session event = some kind) :
    exchange.clearing session kind = false := by
  cases event with
  | receive i => cases hDeposit
  | serve i =>
      obtain ⟨seat, message, outbox, hSeat, hOutbox, -⟩ := serve?_eq_some hStep
      rw [deposit?_serve hSeat hOutbox, Option.ite_none_right_eq_some] at hDeposit
      by_cases hEarly : i < 2
      · obtain ⟨leaver, role, rfl, hLeaver, -, -, hLeave, -⟩ := h.leave hEarly hStep
        rw [hSeat, Option.some.injEq] at hLeaver
        rw [← hLeaver, hOutbox, List.cons.injEq] at hLeave
        rw [hLeave.1] at hDeposit
        cases hDeposit.2
      · obtain ⟨k, rfl⟩ := Nat.exists_eq_add_of_le' (Nat.le_of_not_lt hEarly)
        exact untouched hInTime hSeat hOutbox hDeposit.1.symm kind
          (Tag.mem_slots_of_deposit? hDeposit.2)
  | outside other message =>
      obtain ⟨rfl, hStores⟩ := (Option.ite_none_right_eq_some).mp hDeposit
      rw [Tag.deposit?_of_writes (hHarmless.resolve_left (not_not_intro rfl))] at hStores
      cases hStores

/-- As long as the relay takes everything in time, an invariant of the exchange in which the leave
has been taken is kept, and nothing that has been stored is about to be cleared. -/
theorem runs (h : Lingers session seen start) (hRuns : Runs session start events exchange)
    (hInTime : start.overtaken session events = false) {P : Exchange ρ → Prop}
    (hStart : P (start.successors seen))
    (hKept : ∀ before after, P before → before.Stutters session after → P after) :
    ∃ seen', Lingers session seen' exchange ∧ P (exchange.successors seen') ∧
      ∀ kind ∈ start.deposits session events, exchange.clearing session kind = false := by
  -- By induction on the run. The other relay changes as things happen, and what is about to be
  -- cleared only gets less.
  induction hRuns with
  | refl => exact ⟨seen, h, hStart, fun kind hMem => (List.not_mem_nil hMem).elim⟩
  | step earlier harmless last ih =>
      rw [earlier.overtaken last, Bool.or_eq_false_iff] at hInTime
      obtain ⟨seen', hLingers, hP, hStored⟩ := ih hInTime.1
      obtain ⟨later, hLingers', hClearing, hStutters⟩ := hLingers.step harmless hInTime.2 last
      refine ⟨later, hLingers', hKept _ _ hP hStutters, fun kind hMem => hClearing kind ?_⟩
      rw [earlier.deposits last, List.mem_append, Option.mem_toList] at hMem
      exact hMem.elim (hStored kind) (hLingers.stored harmless hInTime.2 last)

/-- The leave changes no slot that it is not about to clear. -/
theorem keeps (h : Lingers session seen exchange) (hEarly : i < 2)
    (hStep : exchange.step? (.serve i) = some after) {kind : ArtifactKind}
    (hKept : exchange.clearing session kind = false) :
    after.relay.server.get? session kind = exchange.relay.server.get? session kind := by
  obtain ⟨seat, role, -, hSeat, rfl, -, hOutbox, rfl⟩ := h.leave hEarly hStep
  obtain ⟨-, store, -, hServer, -⟩ := h.cleared
  obtain ⟨later, hRelay, hUpdate⟩ := Relay.dispatch_slots hServer exchange.source seat.session
    (.disconnect role)
  rw [clearing_eq hSeat hOutbox] at hKept
  simp only [hRelay, hServer, Mailbox.Server.get?, hUpdate, if_pos, Message.update, hKept]
  rfl

omit [RandomSource ρ] in
/-- New participants change nothing for those that linger. -/
theorem connect (h : Lingers session seen exchange) (other : SessionId)
    (participants : List (Participant ρ)) :
    Lingers session seen (exchange.connect other participants) := by
  refine h.of_seats (fun i hi => ?_) h.cleared
  obtain ⟨seat, hSeat, -⟩ := h.idle i hi
  exact List.getElem?_append_left (List.getElem?_eq_some_iff.mp hSeat).1

end Lingers

/-- Later participants have a session for themselves, but for a leave that may be on its way. -/
structure Vacated (cc : Context) (session : SessionId) (seen : Relay) (exchange : Exchange ρ) :
    Prop where
  lingers : Lingers session seen exchange
  context : seen.context = cc
  empty : ∃ store, seen.server = .running store ∧ ∀ kind, store.get? session kind = none
  others : ∀ k seat, exchange.seats[k + 2]? = some seat → seat.session ≠ session

namespace Conduct

variable {D S L S' L' : Type} [DecidableEq S] [ToString S] [DecidableEq S'] [ToString S']
  {own : Conduct D S L ρ} {peer : Conduct D S' L' ρ} {setting : Setting D} {d : D}
  {mark mark' : Mark} {i j : Nat} {exchange after : Exchange ρ}

/-- Two parties stay at marks of their courses when something happens or not. -/
theorem Partners.stutters (h : own.Partners peer setting)
    (hHolds : own.Holds peer setting d mark mark' i j exchange)
    (hStutters : exchange.Stutters setting.session after) :
    ∃ d' next next', own.Holds peer setting d' next next' i j after := by
  cases hStutters with
  | stays source =>
      exact ⟨d, mark, mark', hHolds.shared, hHolds.apart, hHolds.seat, hHolds.seat', hHolds.others⟩
  | steps harmless last source =>
      obtain ⟨d', next, next', -, -, hNext⟩ := h.step hHolds harmless last
      exact ⟨d', next, next', hNext.shared, hNext.apart, hNext.seat, hNext.seat', hNext.others⟩

/-- When two parties, of which the second one watches the first one, have halted, then nothing but
the leave of the second one can still be on its way. Once it is taken their session is empty. -/
theorem Partners.vacated (h : own.Partners peer setting)
    (hWatches : ∃ errand ∈ peer.course, errand.Watches)
    (hHolds : own.Holds peer setting d mark mark' 0 1 exchange)
    (hHalted : ∀ k < 2, ∃ seat, exchange.seats[k]? = some seat ∧ seat.participant.halted) :
    ∃ seen, Vacated setting.context setting.session seen exchange := by
  obtain ⟨seat', hSeat', hSits'⟩ := hHolds.seat'
  have hStopped : seat'.participant.halted := by
    obtain ⟨now, hNow, hStopped⟩ := hHalted 1 (by decide)
    rw [hSeat', Option.some.injEq] at hNow
    rwa [hNow]
  obtain rfl := h.leaves_after hWatches hHolds hSeat' hStopped
  have hGone := (h.fits'.halted_iff hSits').mp hStopped
  have hIdle : ∀ i < 2, ∃ seat, exchange.seats[i]? = some seat ∧ seat.session = setting.session ∧
      seat.inbox = [] ∧ (seat.outbox = [] ∨ i = 1 ∧ ∃ role, seat.outbox = [.disconnect role]) := by
    intro i hi
    obtain rfl | rfl : i = 0 ∨ i = 1 := by omega
    · obtain ⟨_, hSeat, machine, -, -, rfl⟩ := hHolds.seat
      exact ⟨_, hSeat, rfl, rfl, .inl rfl⟩
    · rcases hGone with rfl | rfl <;> obtain ⟨machine, -, -, rfl⟩ := hSits'
      · exact ⟨_, hSeat', rfl, rfl, .inr ⟨rfl, _, rfl⟩⟩
      · exact ⟨_, hSeat', rfl, rfl, .inl rfl⟩
  have hOthers : ∀ k seat, exchange.seats[k + 2]? = some seat → seat.session ≠ setting.session :=
    fun k seat hSeat => hHolds.others (k + 2) seat hSeat (by omega) (by omega)
  obtain ⟨store, hServer, -⟩ := hHolds.shared.slots
  rcases hGone with rfl | rfl
  · -- The leave is on its way: the other relay is what this one will be when it has taken it.
    have hShared := h.symm.shared_left hHolds.shared.symm hServer
    have hCleared := Relay.cleared_dispatch hServer exchange.source setting.session
      (.disconnect peer.role) rfl
    rw [Relay.dispatch_disconnect hServer, ← clearing_eq hSeat' hSits'.outbox_of_leaves,
      hSits'.session] at hCleared
    exact ⟨_, ⟨hIdle, hCleared⟩, hShared.context, hShared.empty, hOthers⟩
  · obtain ⟨machine, -, -, rfl⟩ := hSits'
    refine ⟨exchange.relay, ⟨hIdle, rfl, store, store, hServer, hServer, fun s kind => ?_⟩,
      hHolds.shared.context, hHolds.shared.empty, hOthers⟩
    simp [clearing, next?, hSeat']

/-- Two parties that connect in a session that has been vacated are at their first marks. -/
theorem Partners.holds_of_vacated (h : own.Partners peer setting) (d : D) {seen : Relay}
    (hVacated : Vacated setting.context setting.session seen exchange) {n : Nat}
    (hLength : exchange.seats.length = n + 2) (policy policy' : RetryPolicy) :
    own.Holds peer setting d (.hears 0 true) (.hears 0 true) n (n + 1)
      ((exchange.connect setting.session
        [own.starting d policy, peer.starting d policy']).successors seen) := by
  let first : Seat ρ := { participant := own.starting d policy, session := setting.session }
  let second : Seat ρ := { participant := peer.starting d policy', session := setting.session }
  let new := [first, second]
  have hLater : (exchange.seats.drop 2).length = n := by simp [hLength]
  have hSeats : ((exchange.connect setting.session
      [own.starting d policy, peer.starting d policy']).successors seen).seats =
        exchange.seats.drop 2 ++ new := by
    rw [successors, connect, List.drop_append_of_le_length (by omega)]
    rfl
  have hSeat : (exchange.seats.drop 2 ++ new)[n]? = some first := by
    rw [List.getElem?_append_right hLater.le, hLater, Nat.sub_self]
    rfl
  have hSeat' : (exchange.seats.drop 2 ++ new)[n + 1]? = some second := by
    rw [List.getElem?_append_right (by omega), hLater, Nat.add_sub_cancel_left]
    rfl
  rw [← hSeats] at hSeat hSeat'
  refine h.holds_of_connected d hVacated.context hVacated.empty (Nat.succ_ne_self n).symm hSeat
    hSeat' fun k seat hOther hi hj => ?_
  rw [hSeats] at hOther
  have hBound := (List.getElem?_eq_some_iff.mp hOther).1
  rw [List.length_append, hLater] at hBound
  rw [List.getElem?_append_left (by simp [new] at hBound; omega), List.getElem?_drop,
    Nat.add_comm] at hOther
  exact hVacated.others k seat hOther

/-- Two parties that connect in a session that has been vacated stay at marks of their courses, as
if the leave had been taken before, as long as the relay takes it in time. -/
theorem Partners.succeeds (h : own.Partners peer setting) (d : D) {seen : Relay}
    (hVacated : Vacated setting.context setting.session seen exchange) {n : Nat}
    (hLength : exchange.seats.length = n + 2) {policy policy' : RetryPolicy}
    {joined : Exchange ρ} (hJoined : joined = exchange.connect setting.session
      [own.starting d policy, peer.starting d policy']) {events : List Event}
    (hRuns : Runs setting.session joined events after)
    (hInTime : joined.overtaken setting.session events = false) :
    ∃ seen' d' next next', Lingers setting.session seen' after ∧
      own.Holds peer setting d' next next' n (n + 1) (after.successors seen') ∧
      ∀ kind ∈ joined.deposits setting.session events,
        after.clearing setting.session kind = false := by
  subst hJoined
  have hStart := h.holds_of_vacated d hVacated hLength policy policy'
  obtain ⟨seen', hLingers, ⟨d', next, next', hHolds⟩, hStored⟩ :=
    (hVacated.lingers.connect setting.session _).runs hRuns hInTime
      (P := fun view => ∃ d' next next', own.Holds peer setting d' next next' n (n + 1) view)
      ⟨d, _, _, hStart⟩
      fun _ _ ⟨_, _, _, hHolds⟩ hStutters => h.stutters hHolds hStutters
  exact ⟨seen', d', next, next', hLingers, hHolds, hStored⟩

end Conduct

end CipherRelay.Exchange
