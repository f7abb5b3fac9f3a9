import CipherRelay.Proofs.Exchange.Pairs
import CipherRelay.Proofs.Exchange.Successors
/-!
Successions. A handoff may follow another pair of participants in the same session. Both of these
have halted when its participants connect, but a leave that nobody acknowledges may still be on its
way to the relay. If it is overtaken by a message about a slot that it clears, the producer can get
back what another consumer has left behind; otherwise nothing of the first pair is noticed.
-/
namespace CipherRelay

open Exchange Party Scheme

variable {ρ : Type} [RandomSource ρ] {cc : Context} {session : SessionId}

/-- When both participants of a pair have halted, later ones have the session for themselves but for
a leave that may be on its way. -/
theorem Exchange.Pair.vacated {first second : Participant ρ} {role role' : Role}
    (hPair : Pair first second role role') (hContext : cc.IsGenerated) {start middle : Exchange ρ}
    (hOpens : Opens cc session first second start) {events : List Event}
    (hRuns : Runs session start events middle)
    (hHalted : ∀ k < 2, ∃ seat, middle.seats[k]? = some seat ∧ seat.participant.halted) :
    ∃ seen, Vacated cc session seen middle := by
  cases hPair with
  | handoff vector policy policy' =>
      have hPartners := Handoff.partners (ρ := ρ) vector session hContext
      obtain ⟨d, mark, mark', -, -, hHolds, -⟩ :=
        hPartners.runs (hPartners.holds_of_opens default hOpens) hRuns
      exact hPartners.vacated accord_handoff.watches hHolds hHalted
  | threshold policy policy' =>
      have hPartners := (Threshold.partners (ρ := ρ) session hContext).symm
      obtain ⟨d, mark, mark', -, -, hHolds, -⟩ :=
        hPartners.runs (hPartners.holds_of_opens default hOpens) hRuns
      exact hPartners.vacated accord_threshold.watches hHolds hHalted

namespace Handoff

variable {own : Option (List Int64)} {d : Draws cc own} {mark mark' : Mark} {relay : Relay}
  {seat seat' : Seat ρ}

/-- Where a producer can encrypt, its vector fits the slots, and the modulus if its values do. -/
theorem Encryptable.suitable (h : Encryptable cc own)
    (hRange : ∀ vector, own = some vector →
      ∀ x ∈ vector, 0 ≤ x.toInt ∧ x.toInt < cc.plaintextModulus.toNat) : Suitable cc own :=
  fun vector hOwn => ⟨h.2 vector hOwn, hRange vector hOwn⟩

/-- A producer that has done all its errands could encrypt. -/
theorem encryptable_of_done
    (hShared : (producer cc own : Conduct _ _ _ ρ).Shared (consumer cc own : Conduct _ _ _ ρ)
      (setting cc own session) d mark mark' relay) (hDone : 5 ≤ mark.done producerCourse) :
    Encryptable cc own := by
  refine (hShared.feasible .ciphertext (List.mem_append_left _ ?_)).2 rfl
  exact List.take_subset_take_left producerCourse hDone
    (show .store .ciphertext ∈ producerCourse.take 5 by decide)

/-- The vector that the relay sends to a producer is the result of the consumer. -/
theorem result_heard
    (hShared : (producer cc own : Conduct _ _ _ ρ).Shared (consumer cc own : Conduct _ _ _ ρ)
      (setting cc own session) d mark mark' relay)
    (hSeat : (producer cc own).Sits (setting cc own session) d mark seat)
    (hSeat' : (consumer cc own).Sits (setting cc own session) d mark' seat') {payload : Bytes}
    {rest : List Message} (hInbox : seat.inbox = .send .vecInt payload :: rest) :
    ∃ consumer values, seat'.participant = .consumer consumer ∧
      consumer.data.result = some values ∧ payload = Artifact.encode values := by
  obtain ⟨i, succeeds, rfl⟩ := hSeat.hears hInbox
  obtain ⟨s, reply, policy, attempts, hPath, hReply, rfl⟩ := hSeat
  cases hInbox
  obtain ⟨rfl, rfl, hPayload⟩ : succeeds = true ∧ i = 4 ∧ payload = d.payload .vecInt := by
    cases succeeds with
    | false => cases s <;> cases hReply
    | true =>
        match i, hPath with
        | 0, rfl | 1, rfl | 2, rfl | 3, rfl => cases hReply
        | 4, rfl =>
            cases hReply
            exact ⟨rfl, rfl, rfl⟩
  -- The producer has fetched the result, so the consumer has handed it over.
  have hDone' : 5 < mark'.done consumerCourse :=
    hShared.earned.lt_done (Nat.le_refl 5)
      (show .fetch .vecInt ∈ producerCourse.take 5 by decide) (by decide)
      (show .store .vecInt ∉ producerCourse by decide)
      (show .store .vecInt ∉ consumerCourse.take 5 by decide)
  have hPlace' := mark'.done_le_place consumerCourse
  obtain ⟨consumer, hConsumer, hData, -, -⟩ :=
    hSeat'.knows (not_not_intro (encryptable_of_done hShared (Nat.le_refl 5)))
  refine ⟨consumer, d.result, hConsumer, ?_, hPayload⟩
  rw [hData, Consumer.result_knowsAt, course_consumer, if_pos (by omega)]

/-- What holds at any time of a handoff that follows another pair of participants in its session,
where some artifacts have been stored since its participants connected. -/
structure Undisturbed (cc : Context) (own : Option (List Int64)) (session : SessionId)
    (exchange : Exchange ρ) (stored : List ArtifactKind) (seat seat' : Seat ρ)
    (producer : Machine ProducerState Producer ρ) (consumer : Machine ConsumerState Consumer ρ) :
    Prop where
  participant : seat.participant = .producer producer
  participant' : seat'.participant = .consumer consumer
  /-- What the producer is to verify is the result of its own consumer. -/
  verifies : ∀ payload rest, seat.inbox = .send .vecInt payload :: rest →
    ∃ values, consumer.data.result = some values ∧ payload = Artifact.encode values
  /-- Whatever the relay may yet take of the first pair, it changes nothing of what has been
  stored. -/
  keeps : ∀ k < 2, ∀ after, exchange.step? (.serve k) = some after → ∀ kind ∈ stored,
    after.relay.server.get? session kind = exchange.relay.server.get? session kind
  passes : producer.halted → producer.data.passed
  /-- If the producer's vector fits the slots, all is as in a handoff that follows nobody. -/
  agrees : Suitable cc own → Agrees cc own seat seat' producer consumer

/-- Where a producer and a consumer are at marks of their courses, as if the leave had been taken,
and nothing that has been stored is about to be cleared, they are not disturbed. -/
theorem undisturbed_of_lingers (hContext : cc.IsGenerated)
    (hModulus : packingBound < cc.plaintextModulus)
    (hRange : ∀ vector, own = some vector →
      ∀ x ∈ vector, 0 ≤ x.toInt ∧ x.toInt < cc.plaintextModulus.toNat)
    {exchange : Exchange ρ} {seen : Relay} {n : Nat} {stored : List ArtifactKind}
    (hLingers : Lingers session seen exchange)
    (hHolds : (producer cc own : Conduct _ _ _ ρ).Holds (consumer cc own : Conduct _ _ _ ρ)
      (setting cc own session) d mark mark' n (n + 1) (exchange.successors seen))
    (hStored : ∀ kind ∈ stored, exchange.clearing session kind = false) :
    ∃ seat seat' producer consumer, exchange.seats[n + 2]? = some seat ∧
      exchange.seats[n + 3]? = some seat' ∧
      Undisturbed cc own session exchange stored seat seat' producer consumer := by
  have hFits := (partners (ρ := ρ) own session hContext).fits
  obtain ⟨seat, hSeat, hSits⟩ := hHolds.seat
  obtain ⟨seat', hSeat', hSits'⟩ := hHolds.seat'
  obtain ⟨producer, hProducer⟩ := hSits.participant
  obtain ⟨consumer, hConsumer⟩ := hSits'.participant
  have hAgrees : Suitable cc own → Agrees cc own seat seat' producer consumer := by
    intro hSuitable
    obtain ⟨first, second, hAgrees⟩ :=
      agrees hContext hModulus hSuitable hHolds.shared hSits hSits'
    obtain rfl := Participant.producer.inj (hProducer.symm.trans hAgrees.participant)
    obtain rfl := Participant.consumer.inj (hConsumer.symm.trans hAgrees.participant')
    exact hAgrees
  rw [successors, List.getElem?_drop, Nat.add_comm] at hSeat hSeat'
  refine ⟨seat, seat', producer, consumer, hSeat, hSeat', ?_⟩
  constructor
  case participant => exact hProducer
  case participant' => exact hConsumer
  case verifies =>
    intro payload rest hInbox
    obtain ⟨other, values, hOther, hResult, hPayload⟩ :=
      result_heard hHolds.shared hSits hSits' hInbox
    obtain rfl := Participant.consumer.inj (hConsumer.symm.trans hOther)
    exact ⟨values, hResult, hPayload⟩
  case keeps =>
    intro k hEarly after hStep kind hMem
    exact hLingers.keeps hEarly hStep (hStored kind hMem)
  case passes =>
    -- A producer that has halted has encrypted its vector, so this fits.
    intro hStopped
    have hGone : seat.participant.halted := by rwa [hProducer]
    have hDone : 5 ≤ mark.done producerCourse := by
      rcases (hFits.halted_iff hSits).mp hGone with rfl | rfl <;> exact Nat.le_refl 5
    have hSuitable := (encryptable_of_done hHolds.shared hDone).suitable hRange
    exact ((hAgrees hSuitable).passed hStopped).1
  case agrees => exact hAgrees

/-- A handoff that follows another pair of participants in the same session is not disturbed by it,
in whatever order everything happens, if the relay takes the last leave of the first pair before any
message of the handoff about a slot that it clears. -/
theorem succession_undisturbed {first second : Participant ρ} {role role' : Role}
    (hPair : Pair first second role role') {params : ContextParams}
    (hContext : Context.generate params = .ok cc) (hModulus : packingBound < cc.plaintextModulus)
    (hRange : ∀ vector, own = some vector →
      ∀ x ∈ vector, 0 ≤ x.toInt ∧ x.toInt < cc.plaintextModulus.toNat)
    {start middle exchange : Exchange ρ} (hOpens : Opens cc session first second start)
    {events later : List Event} (hRuns : Runs session start events middle)
    (hHalted : ∀ k < 2, ∃ seat, middle.seats[k]? = some seat ∧ seat.participant.halted)
    {policy policy' : RetryPolicy} {joined : Exchange ρ}
    (hJoined : joined =
      middle.connect session [.ofVector own policy, .ofRole .consumer policy'])
    (hLater : Runs session joined later exchange)
    (hInTime : joined.overtaken session later = false) :
    ∃ seat seat' producer consumer, exchange.seats[middle.seats.length]? = some seat ∧
      exchange.seats[middle.seats.length + 1]? = some seat' ∧
      Undisturbed cc own session exchange (joined.deposits session later) seat seat' producer
        consumer := by
  have hGenerated := Context.isGenerated_of_generate hContext
  obtain ⟨seen, hVacated⟩ := hPair.vacated hGenerated hOpens hRuns hHalted
  obtain ⟨n, hLength⟩ : ∃ n, middle.seats.length = n + 2 := by
    obtain ⟨seat, hSeat, -⟩ := hHalted 1 (by decide)
    have hLt := (List.getElem?_eq_some_iff.mp hSeat).1
    exact ⟨middle.seats.length - 2, by omega⟩
  obtain ⟨seen', d, mark, mark', hLingers, hHolds, hStored⟩ :=
    (partners own session hGenerated).succeeds default hVacated hLength hJoined hLater hInTime
  rw [hLength]
  exact undisturbed_of_lingers hGenerated hModulus hRange hLingers hHolds hStored

/-- The sample until both participants have halted. The consumer's leave is still on its way. -/
def farewell : List Event :=
  turns 0 4 ++ turns 1 6 ++ turns 0 2 ++ [.receive 1, .serve 1, .receive 1]

/-- The same participants once more. -/
def encore : List (Participant Congruential) :=
  [.ofVector none {}, .ofRole .consumer {}]

/-- The second handoff, in which the relay takes the leave just before the second consumer's public
key. -/
def reprise : List Event :=
  turns 2 3 ++ [.receive 3, .serve 3, .receive 3, .serve 1, .serve 3] ++ turns 3 4 ++ turns 2 2 ++
    turns 3 2

omit [RandomSource ρ] in
theorem exists_halted {exchange : Exchange ρ}
    (h : (List.range 2).all fun k => (exchange.seats[k]?).any fun seat => seat.participant.halted) :
    ∀ k < 2, ∃ seat, exchange.seats[k]? = some seat ∧ seat.participant.halted := by
  intro k hk
  exact (Option.any_eq_true _ _).mp (List.all_eq_true.mp h k (List.mem_range.mpr hk))

theorem succession_undisturbed_sample :
    ∃ middle exchange, Runs .default sample farewell middle ∧
      (∀ k < 2, ∃ seat, middle.seats[k]? = some seat ∧ seat.participant.halted) ∧
      Runs .default (middle.connect .default encore) reprise exchange ∧
      (middle.connect .default encore).overtaken .default reprise = false ∧ exchange.halted ∧
      ∃ seat seat' producer consumer, exchange.seats[middle.seats.length]? = some seat ∧
        exchange.seats[middle.seats.length + 1]? = some seat' ∧
        Undisturbed ⟨2, 65537⟩ none .default exchange
          ((middle.connect .default encore).deposits .default reprise) seat seat' producer
          consumer := by
  have hFollows : (sample.follow? farewell).any fun middle =>
      ((List.range 2).all fun k => (middle.seats[k]?).any fun seat => seat.participant.halted) &&
        !(middle.connect .default encore).overtaken .default reprise &&
        ((middle.connect .default encore).follow? reprise).any Exchange.halted := by
    decide +kernel
  obtain ⟨middle, hRuns, hMiddle⟩ := exists_runs
    (show ∀ event ∈ farewell, event.Harmless .default by decide) hFollows
  simp only [Bool.and_eq_true, Bool.not_eq_true'] at hMiddle
  obtain ⟨⟨hStopped, hInTime⟩, hLater⟩ := hMiddle
  have hHalted := exists_halted hStopped
  obtain ⟨exchange, hReprise, hDone⟩ := exists_runs
    (show ∀ event ∈ reprise, event.Harmless .default by decide) hLater
  exact ⟨middle, exchange, hRuns, hHalted, hReprise, hInTime, hDone,
    succession_undisturbed (.handoff none {} {})
      (show Context.generate ⟨2, 65537⟩ = .ok ⟨2, 65537⟩ by decide) (by decide)
      (by simp) (opens_opening ..) hRuns hHalted rfl hReprise hInTime⟩

/-- The second handoff, in which everything is taken before the leave. -/
def haste : List Event :=
  turns 2 4 ++ [.receive 2] ++ turns 3 2

/-- Whether a participant is a producer that has halted and has not passed. -/
def misled : Participant ρ → Bool
  | .producer machine => machine.halted && !machine.data.passed
  | _ => false

omit [RandomSource ρ] in
theorem exists_of_misled {participant : Participant ρ} (h : misled participant) :
    ∃ producer, participant = .producer producer ∧ producer.halted ∧
      producer.data.passed = false := by
  cases participant with
  | producer machine => exact ⟨machine, rfl, by simpa [misled] using h⟩
  | _ => cases h

/-- Where the leave is overtaken, the second producer can get back what the first consumer has left
behind, and the leave clears what the second consumer has stored. -/
theorem succession_disturbed :
    ∃ middle exchange after, Runs .default sample farewell middle ∧
      (∀ k < 2, ∃ seat, middle.seats[k]? = some seat ∧ seat.participant.halted) ∧
      Runs .default (middle.connect .default encore) haste exchange ∧
      (∃ seat producer, exchange.seats[2]? = some seat ∧ seat.participant = .producer producer ∧
        producer.halted ∧ producer.data.passed = false) ∧
      exchange.step? (.serve 1) = some after ∧
      .publicKey ∈ (middle.connect .default encore).deposits .default haste ∧
      (exchange.relay.server.get? .default .publicKey).isSome ∧
      after.relay.server.get? .default .publicKey = none := by
  have hFollows : (sample.follow? farewell).any fun middle =>
      ((List.range 2).all fun k => (middle.seats[k]?).any fun seat => seat.participant.halted) &&
        ((middle.connect .default encore).deposits .default haste).contains .publicKey &&
        ((middle.connect .default encore).follow? haste).any
          fun exchange => (exchange.seats[2]?).any (fun seat => misled seat.participant) &&
            (exchange.relay.server.get? .default .publicKey).isSome &&
            (exchange.step? (.serve 1)).any fun after =>
              (after.relay.server.get? .default .publicKey).isNone := by
    decide +kernel
  obtain ⟨middle, hRuns, hMiddle⟩ := exists_runs
    (show ∀ event ∈ farewell, event.Harmless .default by decide) hFollows
  simp only [Bool.and_eq_true, List.contains_iff_mem] at hMiddle
  obtain ⟨⟨hStopped, hDeposits⟩, hLater⟩ := hMiddle
  obtain ⟨exchange, hEncore, hDone⟩ := exists_runs
    (show ∀ event ∈ haste, event.Harmless .default by decide) hLater
  simp only [Bool.and_eq_true, Option.any_eq_true, Option.isNone_iff_eq_none] at hDone
  obtain ⟨⟨⟨seat, hSeat, hMisled⟩, hFilled⟩, after, hLeave, hCleared⟩ := hDone
  obtain ⟨producer, hProducer⟩ := exists_of_misled hMisled
  exact ⟨middle, exchange, after, hRuns, exists_halted hStopped, hEncore,
    ⟨seat, producer, hSeat, hProducer⟩, hLeave, hDeposits, hFilled, hCleared⟩

end Handoff

end CipherRelay
