import CipherRelay.Proofs.Exchange.Leaving
import CipherRelay.Proofs.Handoff.Agreement
import CipherRelay.Proofs.Threshold.Partners
/-!
The two pairs of honest participants, a producer with a consumer and Bob with Alice. In both the
second participant watches the first one, so the first one takes leave first.
-/
namespace CipherRelay.Exchange

open Party Scheme

variable {ρ : Type} [RandomSource ρ]

/-- Two honest participants that have something to do with each other, and their roles. -/
inductive Pair : Participant ρ → Participant ρ → Role → Role → Prop
  | handoff (vector : Option (List Int64)) (policy policy' : RetryPolicy) :
      Pair (.ofVector vector policy) (.ofRole .consumer policy') .producer .consumer
  | threshold (policy policy' : RetryPolicy) :
      Pair (.ofRole .bob policy) (.ofRole .alice policy') .bob .alice

theorem accord_handoff : Accord Handoff.producerCourse Handoff.consumerCourse := by
  decide +kernel

theorem accord_threshold : Accord Threshold.bobCourse Threshold.aliceCourse := by
  decide +kernel

variable {D S L S' L' : Type} [DecidableEq S] [ToString S] [DecidableEq S'] [ToString S']
  {own : Conduct D S L ρ} {peer : Conduct D S' L' ρ} {setting : Setting D} {d : D}
  {start exchange : Exchange ρ} {events : List Event}

/-- What holds of taking leave at any time of a run. -/
structure LeavesSafely (session : SessionId) (start : Exchange ρ) (events : List Event)
    (exchange : Exchange ρ) (role role' : Role) : Prop where
  /-- From the moment at which the relay is to take a leave and to clear slots, the other
  participant has halted or waits for something else than an artifact, whatever happens. -/
  takes_nothing : ∀ i j, i + j = 1 → ∀ seat, exchange.seats[i]? = some seat → seat.TakesLeave →
    ∀ events' later, Runs session exchange events' later →
      ∀ seat', later.seats[j]? = some seat' → seat'.participant.halted = false →
        ∀ kind, seat'.participant.trigger? ≠ some (.send kind)
  /-- The second participant halts only after the first one has halted and the relay has taken its
  leave. -/
  in_order : ∀ seat', exchange.seats[1]? = some seat' → seat'.participant.halted →
    (∃ seat, exchange.seats[0]? = some seat ∧ seat.participant.halted) ∧
      TakesLeave session start events exchange 0 role
  /-- Once the relay has taken both leaves, both participants have halted and no slot of their
  session is filled. -/
  empty : TakesLeave session start events exchange 0 role →
    TakesLeave session start events exchange 1 role' →
      (∀ i < 2, ∃ seat, exchange.seats[i]? = some seat ∧ seat.participant.halted) ∧
        ∃ store, exchange.relay.server = .running store ∧ ∀ kind, store.get? session kind = none

/-- Two parties whose courses are in accord take nothing away from each other. -/
theorem Conduct.Partners.leavesSafely (h : own.Partners peer setting)
    (hAccord : Accord own.course peer.course)
    (hStart : own.Holds peer setting d (.hears 0 true) (.hears 0 true) 0 1 start)
    (hRuns : Runs setting.session start events exchange) :
    LeavesSafely setting.session start events exchange own.role peer.role := by
  obtain ⟨d', mark, mark', -, -, hHolds, hTaken⟩ := h.runs hStart hRuns
  obtain ⟨seat, hSeat, hSits⟩ := hHolds.seat
  obtain ⟨seat', hSeat', hSits'⟩ := hHolds.seat'
  constructor
  case takes_nothing =>
    intro i j hij leaver hLeaver hLeaves events' later hLater other hOther hLive
    obtain ⟨rfl, rfl⟩ | ⟨rfl, rfl⟩ : i = 0 ∧ j = 1 ∨ i = 1 ∧ j = 0 := by omega
    · exact h.takes_nothing hAccord.releases hHolds hLeaver hLeaves hLater hOther hLive
    · exact h.symm.takes_nothing hAccord.releases' hHolds.symm hLeaver hLeaves hLater hOther hLive
  case in_order =>
    intro other hOther hHalted
    obtain rfl : mark = .left := h.leaves_after hAccord.watches hHolds hOther hHalted
    exact ⟨⟨seat, hSeat, ((h.fits.hasLeft_iff hSits).mpr rfl).1⟩,
      (hTaken rfl).resolve_left (by simp)⟩
  case empty =>
    intro hFirst hSecond
    have hLeft := h.hasLeft hStart hFirst hSeat
    have hLeft' := h.symm.hasLeft hStart.symm hSecond hSeat'
    obtain rfl := (h.fits.hasLeft_iff hSits).mp hLeft
    obtain rfl := (h.fits'.hasLeft_iff hSits').mp hLeft'
    refine ⟨fun i hi => ?_, hHolds.shared.empty⟩
    obtain rfl | rfl : i = 0 ∨ i = 1 := by omega
    · exact ⟨seat, hSeat, hLeft.1⟩
    · exact ⟨seat', hSeat', hLeft'.1⟩

/-- No participant of a pair takes anything away that the other one still waits for, in whatever
order everything happens. -/
theorem Pair.leaves_safely {first second : Participant ρ} {role role' : Role}
    (hPair : Pair first second role role') {params : ContextParams} {cc : Context}
    (hContext : Context.generate params = .ok cc) {session : SessionId}
    {start exchange : Exchange ρ} (hOpens : Opens cc session first second start)
    {events : List Event} (hRuns : Runs session start events exchange) :
    LeavesSafely session start events exchange role role' := by
  have hGenerated := Context.isGenerated_of_generate hContext
  cases hPair with
  | handoff vector policy policy' =>
      have hPartners := Handoff.partners (ρ := ρ) vector session hGenerated
      exact hPartners.leavesSafely accord_handoff (hPartners.holds_of_opens default hOpens) hRuns
  | threshold policy policy' =>
      have hPartners := (Threshold.partners (ρ := ρ) session hGenerated).symm
      exact hPartners.leavesSafely accord_threshold (hPartners.holds_of_opens default hOpens) hRuns

theorem leaves_safely_sample :
    ∃ exchange, Runs .default Handoff.sample Handoff.schedule exchange ∧ exchange.halted ∧
      LeavesSafely .default Handoff.sample Handoff.schedule exchange .producer .consumer := by
  obtain ⟨exchange, hRuns, hHalted⟩ := exists_runs
    (show ∀ event ∈ Handoff.schedule, event.Harmless .default by decide) Handoff.sample_halts
  exact ⟨exchange, hRuns, hHalted, Pair.leaves_safely (.handoff none {} {})
    (show Context.generate ⟨2, 65537⟩ = .ok ⟨2, 65537⟩ by decide) (opens_opening ..) hRuns⟩

/-- What holds of waiting at any time of a run. -/
structure NeverBlocked (session : SessionId) (start : Exchange ρ) (events : List Event)
    (exchange : Exchange ρ) : Prop where
  /-- If both participants are still at work and have sent a message, then the relay, if it takes
  that message now, answers one of them with the tag on which it goes on. -/
  no_circle : ∀ seat seat', exchange.seats[0]? = some seat → exchange.seats[1]? = some seat' →
    seat.participant.halted = false → seat'.participant.halted = false →
      ∀ message message', seat.participant.outbound? = some message →
        seat'.participant.outbound? = some message' → ∀ source : ρ,
          (∃ tag, seat.participant.trigger? = some tag ∧
            exchange.relay.Answers source session message tag) ∨
          ∃ tag, seat'.participant.trigger? = some tag ∧
            exchange.relay.Answers source session message' tag
  /-- If the relay has taken the leave of one participant and the other one is still at work, then
  the relay answers the message of the other one in this way. -/
  not_alone : ∀ i j, i + j = 1 → ∀ role, TakesLeave session start events exchange i role →
    ∀ seat', exchange.seats[j]? = some seat' → seat'.participant.halted = false → ∀ source : ρ,
      ∃ message tag, seat'.participant.outbound? = some message ∧
        seat'.participant.trigger? = some tag ∧
        exchange.relay.Answers source session message tag

/-- Two parties whose courses are in accord never block each other. -/
theorem Conduct.Partners.neverBlocked (h : own.Partners peer setting)
    (hAccord : Accord own.course peer.course)
    (hStart : own.Holds peer setting d (.hears 0 true) (.hears 0 true) 0 1 start)
    (hRuns : Runs setting.session start events exchange) :
    NeverBlocked setting.session start events exchange := by
  obtain ⟨d', mark, mark', -, -, hHolds, -⟩ := h.runs hStart hRuns
  obtain ⟨now, hNow, hSits⟩ := hHolds.seat
  obtain ⟨now', hNow', hSits'⟩ := hHolds.seat'
  constructor
  case no_circle =>
    intro seat seat' hSeat hSeat' hLive hLive' message message' hMessage hMessage' source
    exact h.unblocked hAccord hHolds (hHolds.sits hSeat) (hHolds.sits' hSeat') hLive hLive'
      hMessage hMessage' source
  case not_alone =>
    intro i j hij role hTakes seat' hSeat' hLive source
    obtain ⟨rfl, rfl⟩ | ⟨rfl, rfl⟩ : i = 0 ∧ j = 1 ∨ i = 1 ∧ j = 0 := by omega
    · have hLeft := h.hasLeft hStart hTakes hNow
      obtain rfl := (h.fits.hasLeft_iff hSits).mp hLeft
      exact h.unblocked_of_left hAccord.releases hHolds hSeat' hLive source
    · have hLeft := h.symm.hasLeft hStart.symm hTakes hNow'
      obtain rfl := (h.fits'.hasLeft_iff hSits').mp hLeft
      exact h.symm.unblocked_of_left hAccord.releases' hHolds.symm hSeat' hLive source

/-- The participants of a pair never wait for each other in a circle, and none waits in vain for one
that has left, in whatever order everything happens. -/
theorem Pair.never_blocked {first second : Participant ρ} {role role' : Role}
    (hPair : Pair first second role role') {params : ContextParams} {cc : Context}
    (hContext : Context.generate params = .ok cc) {session : SessionId}
    {start exchange : Exchange ρ} (hOpens : Opens cc session first second start)
    {events : List Event} (hRuns : Runs session start events exchange) :
    NeverBlocked session start events exchange := by
  have hGenerated := Context.isGenerated_of_generate hContext
  cases hPair with
  | handoff vector policy policy' =>
      have hPartners := Handoff.partners (ρ := ρ) vector session hGenerated
      exact hPartners.neverBlocked accord_handoff (hPartners.holds_of_opens default hOpens) hRuns
  | threshold policy policy' =>
      have hPartners := (Threshold.partners (ρ := ρ) session hGenerated).symm
      exact hPartners.neverBlocked accord_threshold (hPartners.holds_of_opens default hOpens) hRuns

/-- Bob has asked for a key that is not there yet, and Alice for the context. -/
theorem never_blocked_sample :
    let start := opening ⟨16, 2⟩ .default (.ofRole .bob {}) (.ofRole .alice {}) (⟨7⟩ : Congruential)
    let events := turns 0 3 ++ [.receive 1]
    ∃ exchange, Runs .default start events exchange ∧
      (exchange.seats.all fun seat => seat.participant.outbound?.isSome) ∧
      NeverBlocked .default start events exchange := by
  intro start events
  have hFollows : (start.follow? events).any fun exchange =>
      exchange.seats.all fun seat => seat.participant.outbound?.isSome := by
    decide +kernel
  obtain ⟨exchange, hRuns, hSent⟩ := exists_runs
    (show ∀ event ∈ events, event.Harmless .default by decide) hFollows
  exact ⟨exchange, hRuns, hSent, Pair.never_blocked (.threshold {} {})
    (show Context.generate ⟨16, 2⟩ = .ok ⟨16, 2⟩ by decide) (opens_opening ..) hRuns⟩

end CipherRelay.Exchange
