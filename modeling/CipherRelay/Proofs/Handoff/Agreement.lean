import CipherRelay.Proofs.Exchange.Runs
import CipherRelay.Proofs.Exchange.Seats
import CipherRelay.Proofs.Handoff.Partners
/-!
Agreement. Where the modulus exceeds the packing bound and the producer's vector fits the slots and
the modulus, a handoff cannot go wrong in any order of events: nobody fails but for want of
patience, or of memory for the keys, and the consumer's result is the producer's vector.
-/
namespace CipherRelay.Handoff

open Exchange Party Scheme

variable {ρ : Type} [RandomSource ρ] {cc : Context} {own : Option (List Int64)} {d : Draws cc own}
  {session : SessionId}

/-- Whether a producer's own vector, if it has one, fits the slots and the modulus. -/
def Suitable (cc : Context) (own : Option (List Int64)) : Prop :=
  ∀ vector, own = some vector → vector.length ≤ cc.ringDimension.toNat ∧
    ∀ x ∈ vector, 0 ≤ x.toInt ∧ x.toInt < cc.plaintextModulus.toNat

/-- What holds of a handoff at any time. -/
structure Agrees (cc : Context) (own : Option (List Int64)) (seat seat' : Seat ρ)
    (producer : Machine ProducerState Producer ρ) (consumer : Machine ConsumerState Consumer ρ) :
    Prop where
  participant : seat.participant = .producer producer
  participant' : seat'.participant = .consumer consumer
  /-- Neither of them has given up but for want of patience, or of memory where none holds a vector
  of the context. -/
  patient : seat.IsPatient cc
  patient' : seat'.IsPatient cc
  /-- What the consumer has got is the producer's vector, followed by zeros. -/
  result : ∀ values, consumer.data.result = some values → ∃ vector,
    producer.data.vector = some vector ∧ (∀ given, own = some given → vector = given) ∧
      values = cc.padded vector
  /-- A producer that has halted passes: the vector, what it decrypts itself and what it has got
  back are the same. -/
  passed : producer.halted → producer.data.passed ∧ ∃ vector keys ct plain,
    producer.data.vector = some vector ∧ producer.data.keys = some keys ∧
      producer.data.ct = some ct ∧ cc.decrypt keys.privateKey ct = .ok plain ∧
      wrap plain cc.plaintextModulus = .ok (cc.padded vector) ∧
      consumer.data.result = some (cc.padded vector)

/-- A vector of one's own is not drawn. -/
theorem Draws.vector_eq_given (d : Draws cc own) {given : List Int64} (h : own = some given) :
    d.vector = given := by
  subst h
  exact d.encrypts

/-- What is encrypted fits the slots and the modulus, so the consumer's result is the vector
itself. -/
theorem Draws.result_eq (h : cc.IsValid) (hModulus : packingBound < cc.plaintextModulus)
    (hSuitable : Suitable cc own) (d : Draws cc own) : d.result = cc.padded d.vector := by
  have hBound := UInt64.lt_iff_toNat_lt.mp hModulus
  have hFits : d.vector.length ≤ cc.ringDimension.toNat ∧
      ∀ x ∈ d.vector, 0 ≤ x.toInt ∧ x.toInt < cc.plaintextModulus.toNat := by
    cases own with
    | some given => exact hSuitable _ (congrArg some d.encrypts.symm)
    | none =>
        obtain ⟨hLength, hBelow⟩ := d.encrypts
        exact ⟨hLength.le, fun x hMem => ⟨(hBelow x hMem).1, (hBelow x hMem).2.trans (by omega)⟩⟩
  exact h.canonical_slotsOf hFits.1 hFits.2

/-- The consumer has its result from the fifth errand on. -/
theorem Consumer.result_knowsAt (d : Draws cc own) (i : Nat) :
    ((consumer cc own : Conduct _ _ _ ρ).knowsAt d i).result =
      if 5 ≤ i then some d.result else none := by
  match i with
  | 0 | 1 | 2 | 3 | 4 | 5 | 6 | _ + 7 => rfl

/-- The producer has its vector back once it has encrypted it. -/
theorem Producer.vector_knowsAt (d : Draws cc own) {i : Nat} (h : 3 ≤ i) :
    ((producer cc own : Conduct _ _ _ ρ).knowsAt d i).vector = some d.vector := by
  match i, h with
  | 3, _ | 4, _ | _ + 5, _ => rfl

/-- In every state of a handoff the two participants agree. -/
theorem agrees (h : cc.IsGenerated) (hModulus : packingBound < cc.plaintextModulus)
    (hSuitable : Suitable cc own) {seat seat' : Seat ρ} {mark mark' : Mark} {relay : Relay}
    (hShared : (producer cc own : Conduct _ _ _ ρ).Shared (consumer cc own : Conduct _ _ _ ρ)
      (setting cc own session) d mark mark' relay)
    (hSeat : (producer cc own).Sits (setting cc own session) d mark seat)
    (hSeat' : (consumer cc own).Sits (setting cc own session) d mark' seat') :
    ∃ producer consumer, Agrees cc own seat seat' producer consumer := by
  have hExcuse : ¬(setting cc own session).excuse :=
    not_not_intro ⟨hModulus, fun vector hOwn => (hSuitable vector hOwn).1⟩
  obtain ⟨first, hFirst, hData, hHalted, hPatient⟩ := hSeat.knows hExcuse
  obtain ⟨second, hSecond, hData', -, hPatient'⟩ := hSeat'.knows hExcuse
  have hPlace := mark.done_le_place producerCourse
  have hPlace' := mark'.done_le_place consumerCourse
  have hBefore' := mark'.place_le_done consumerCourse
  refine ⟨first, second, hFirst, hSecond, hPatient, hPatient', fun values hValues => ?_,
    fun hStopped => ?_⟩
  · -- A consumer that has a result has fetched the ciphertext, so the producer has handed it over.
    rw [hData', Consumer.result_knowsAt, course_consumer] at hValues
    have hDone' : 5 ≤ mark'.place consumerCourse := by
      by_contra hEarly
      simp [hEarly] at hValues
    have hDone : 3 < mark.done producerCourse :=
      hShared.earned'.lt_done (hDone'.trans hBefore')
        (show .fetch .ciphertext ∈ consumerCourse.take 5 by decide) (by decide)
        (show .store .ciphertext ∉ consumerCourse by decide)
        (show .store .ciphertext ∉ producerCourse.take 3 by decide)
    have hRoom : cc.HasRoom :=
      (hShared.symm.feasible_of_done (hDone'.trans hBefore')
        (show .store .publicKey ∈ consumerCourse.take 5 by decide)).1
    refine ⟨d.vector, ?_, fun given hOwn => d.vector_eq_given hOwn, ?_⟩
    · rw [hData, Producer.vector_knowsAt]
      rw [course_producer]
      omega
    · rw [if_pos hDone'] at hValues
      rw [← Option.some.inj hValues, d.result_eq (h.isValid hRoom) hModulus hSuitable]
  · -- A producer that has halted has fetched the result, so the consumer has handed it over.
    have hPlaced := hHalted hStopped
    rw [hPlaced, Conduct.knowsAt_length] at hData
    have hDone' : 5 < mark'.done consumerCourse :=
      hShared.earned.lt_done (hPlaced.ge.trans (mark.place_le_done _))
        (show .fetch .vecInt ∈ producerCourse.take 5 by decide) (by decide)
        (show .store .vecInt ∉ producerCourse by decide)
        (show .store .vecInt ∉ consumerCourse.take 5 by decide)
    have hRoom : cc.HasRoom :=
      (hShared.feasible_of_done (hPlaced.ge.trans (mark.place_le_done _))
        (show .store .privateKey ∈ producerCourse.take 5 by decide)).1
    have hValid := h.isValid hRoom
    have hResult := d.result_eq hValid hModulus hSuitable
    rw [hData, hData', Consumer.result_knowsAt, course_consumer, if_pos (by omega)]
    refine ⟨decide_eq_true hResult, d.vector, d.keys, cc.ciphertext d.parts,
      cc.centered (cc.slotsOf d.vector), rfl, rfl, rfl, ?_, ?_, by rw [hResult]⟩
    · rw [Draws.privateKey_keys, hValid.decrypt_eq_ok, Draws.opened_parts]
    · rw [← hResult]
      exact hValid.wrap_centered _

/-- However the events of a handoff are interleaved, the consumer gets the producer's vector and the
producer finds that it did. -/
theorem producer_and_consumer_agree {params : ContextParams}
    (hContext : Context.generate params = .ok cc)
    (hModulus : packingBound < cc.plaintextModulus) (hSuitable : Suitable cc own)
    {policy policy' : RetryPolicy} {start exchange : Exchange ρ}
    (hOpens : Opens cc session (.ofVector own policy) (.ofRole .consumer policy') start)
    {events : List Event} (hRuns : Runs session start events exchange) :
    ∃ seat seat' producer consumer, exchange.seats[0]? = some seat ∧
      exchange.seats[1]? = some seat' ∧ Agrees cc own seat seat' producer consumer := by
  have hGenerated := Context.isGenerated_of_generate hContext
  have hPartners := partners (ρ := ρ) own session hGenerated
  obtain ⟨d, mark, mark', -, -, hHolds, -⟩ :=
    hPartners.runs (hPartners.holds_of_opens default hOpens) hRuns
  obtain ⟨seat, hSeat, hSits⟩ := hHolds.seat
  obtain ⟨seat', hSeat', hSits'⟩ := hHolds.seat'
  obtain ⟨first, second, hAgrees⟩ :=
    agrees hGenerated hModulus hSuitable hHolds.shared hSits hSits'
  exact ⟨seat, seat', first, second, hSeat, hSeat', hAgrees⟩

def sample : Exchange Congruential :=
  opening ⟨2, 65537⟩ .default (.ofVector none {}) (.ofRole .consumer {}) ⟨7⟩

/-- An order of events in which the sample comes to its end: the producer asks for the result once
too early, and the consumer for the absence of the ciphertext only when it is gone. -/
def schedule : List Event :=
  turns 0 4 ++ turns 1 6 ++ turns 0 2 ++ turns 1 2

theorem sample_halts : (sample.follow? schedule).any halted := by
  decide +kernel

theorem producer_and_consumer_agree_sample :
    ∃ exchange, Runs .default sample schedule exchange ∧ exchange.halted ∧
      ∃ seat seat' producer consumer, exchange.seats[0]? = some seat ∧
        exchange.seats[1]? = some seat' ∧
        Agrees ⟨2, 65537⟩ none seat seat' producer consumer := by
  obtain ⟨exchange, hRuns, hHalted⟩ := exists_runs
    (show ∀ event ∈ schedule, event.Harmless .default by decide) sample_halts
  exact ⟨exchange, hRuns, hHalted, producer_and_consumer_agree
    (show Context.generate ⟨2, 65537⟩ = .ok ⟨2, 65537⟩ by decide) (by decide) (by simp [Suitable])
    (opens_opening ..) hRuns⟩

end CipherRelay.Handoff
