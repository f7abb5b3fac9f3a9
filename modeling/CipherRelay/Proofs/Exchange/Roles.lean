import CipherRelay.Proofs.Exchange.Pace
import CipherRelay.Proofs.Handoff.Partners
import CipherRelay.Proofs.Threshold.Agreement
/-!
The four roles keep pace with the relay. What an action decides may depend on everything that the
party has received, but the kind of message that it sends is that of the errand with which it waits
next.
-/
namespace CipherRelay

open Exchange Party Scheme

variable {ρ : Type} [RandomSource ρ] {cc : Context}

namespace Handoff

/-- Whatever a producer is sent, it goes from one errand to the next. -/
theorem Producer.follows (s : ProducerState) (message : Message) :
    (action s message : Action Producer ρ (Next ProducerState)).Yields
      (Follows ProducerState.errand) := by
  cases s with
  | getMessage | genCT => exact .pure rfl
  | requestCC =>
      simp only [action, onContext]
      repeat (with_reducible apply Action.Yields.bind; intro _)
      exact .pure rfl
  | genKeys =>
      refine .bind fun producer => .bind fun cc => .bind fun keys => ?_
      -- Where the modulus is too small, the action fails before it decides.
      split
      · repeat (with_reducible apply Action.Yields.bind; intro _)
        exact .pure rfl
      · repeat (with_reducible apply Action.Yields.bind; intro _)
        exact .pure rfl
  | requestVecInt =>
      simp only [action, onResult]
      repeat (with_reducible apply Action.Yields.bind; intro _)
      exact .pure trivial

theorem Consumer.follows (s : ConsumerState) (message : Message) :
    (action s message : Action Consumer ρ (Next ConsumerState)).Yields
      (Follows ConsumerState.errand) := by
  cases s with
  | getMessage | sendPublicKey | sendVecInt => exact .pure rfl
  | requestCC | requestReEncryptionKey | requestCT =>
      simp only [action, onContext, onReKey, onCiphertext]
      repeat (with_reducible apply Action.Yields.bind; intro _)
      exact .pure rfl
  | awaitProducer => exact .pure trivial

/-- The relay knows the errands of a producer, and each of its steps sends what the next one asks
for. -/
theorem steady_producer (own : Option (List Int64)) :
    (producer cc own : Conduct _ _ _ ρ).Steady where
  servable s := by cases s <;> first | trivial | exact .inl rfl
  follows := Producer.follows

theorem steady_consumer (own : Option (List Int64)) :
    (consumer cc own : Conduct _ _ _ ρ).Steady where
  servable s := by cases s <;> first | trivial | exact .inl rfl | exact .inr rfl
  follows := Consumer.follows

end Handoff

namespace Threshold

omit [RandomSource ρ] in
/-- How many ciphertexts Alice has decides what she asks for. -/
theorem Alice.onCiphertext_follows (message : Message) :
    (onCiphertext message : Action Knowledge ρ (Next AliceState)).Yields
      (Follows AliceState.errand) := by
  refine .bind fun ct => .bind fun _ => .bind fun known => ?_
  split
  · exact .pure rfl
  · exact .pure rfl
  · exact .bind fun _ => .pure rfl

/-- Whatever Alice is sent, she goes from one errand to the next. -/
theorem Alice.follows (s : AliceState) (message : Message) :
    (action s message : Action Knowledge ρ (Next AliceState)).Yields
      (Follows AliceState.errand) := by
  cases s with
  | getMessage | sendRnd1EvalSumKeys | sendRnd3EvalMultFinal => exact .pure rfl
  | requestCC | sendRnd1PubKey | sendRnd1EvalMultKey | requestRnd2SharedKey | requestRnd2EvalMultAB
  | requestRnd2EvalMultBAB | requestRnd2EvalSumKeysJoin | requestLead =>
      simp only [action, onContext, onPubKeyStored, onMultKeyStored, onSharedKey, onMultAB,
        onMultBAB, onSumKeys, onLead]
      repeat (with_reducible apply Action.Yields.bind; intro _)
      exact .pure rfl
  | requestCt1 | requestCt2 | requestCt3 => exact onCiphertext_follows message
  | sendMain =>
      refine .bind fun operation => ?_
      cases operation <;> exact .pure rfl
  | awaitBob => exact .pure trivial

omit [RandomSource ρ] in
theorem Bob.sendLead_follows (operation : Operation) :
    (sendLead operation : Action Knowledge ρ (Next BobState)).Yields (Follows BobState.errand) :=
  .bind fun _ => .pure rfl

omit [RandomSource ρ] in
/-- What has been stored decides what Bob hands over next. -/
theorem Bob.onCiphertextStored_follows (message : Message) :
    (onCiphertextStored message : Action Knowledge ρ (Next BobState)).Yields
      (Follows BobState.errand) := by
  rw [onCiphertextStored]
  split
  · exact .bind fun _ => .bind fun _ => .pure rfl
  · exact .bind fun _ => .bind fun _ => .pure rfl
  · exact .bind fun _ => sendLead_follows .add

theorem Bob.follows (s : BobState) (message : Message) :
    (action s message : Action Knowledge ρ (Next BobState)).Yields (Follows BobState.errand) := by
  cases s with
  | getMessage | sendRnd2EvalSumKeysJoin => exact .pure rfl
  | requestCC | requestRnd1PubKey | requestRnd1EvalMultKey | requestRnd1EvalSumKeys
  | sendRnd2SharedKey | sendRnd2EvalMultAB | sendRnd2EvalMultBAB | requestRnd3EvalMultFinal
  | sendLead =>
      simp only [action, onContext, onPubKey, onMultKey, onSumKeys, onSharedKeyStored, onABStored,
        onBABStored, onFinal, onLeadStored]
      repeat (with_reducible apply Action.Yields.bind; intro _)
      exact .pure rfl
  | sendCt1 | sendCt2 | sendCt3 => exact onCiphertextStored_follows message
  | requestMain =>
      refine .bind fun operation => .bind fun _ => .bind fun _ => .bind fun _ => ?_
      cases operation with
      | add | mult => exact sendLead_follows _
      | sum => exact .pure trivial

theorem steady_alice : (alice cc : Conduct _ _ _ ρ).Steady where
  servable s := by cases s <;> first | trivial | exact .inl rfl
  follows := Alice.follows

theorem steady_bob : (bob cc : Conduct _ _ _ ρ).Steady where
  servable s := by cases s <;> first | trivial | exact .inl rfl
  follows := Bob.follows

end Threshold

namespace Exchange

/-- A participant in one of the four roles, before its first message. -/
inductive Honest : Participant ρ → Prop
  | producer (vector : Option (List Int64)) (policy : RetryPolicy) :
      Honest (.ofVector vector policy)
  | consumer (policy : RetryPolicy) : Honest (.ofRole .consumer policy)
  | alice (policy : RetryPolicy) : Honest (.ofRole .alice policy)
  | bob (policy : RetryPolicy) : Honest (.ofRole .bob policy)

/-- A participant in one of the four roles that connects to a running relay is in step with it until
it stops, whatever the mailbox holds and whatever others do. -/
theorem Honest.in_step {participant : Participant ρ} (hHonest : Honest participant)
    {params : ContextParams} (hContext : Context.generate params = .ok cc)
    {start exchange : Exchange ρ} (hRelay : start.relay.context = cc)
    (hRunning : ∃ store, start.relay.server = .running store) {i : Nat} {session : SessionId}
    (hSeat : start.seats[i]? = some { participant, session }) {events : List Event}
    (hFollow : start.follow? events = some exchange) :
    ∃ seat, exchange.seats[i]? = some seat ∧
      (seat.participant.halted = false → seat.failure = none → InStep seat) := by
  have hGenerated := Context.isGenerated_of_generate hContext
  have hStart : start.relay.context.IsGenerated := hRelay ▸ hGenerated
  cases hHonest with
  | producer vector policy =>
      have hPartners := Handoff.partners (ρ := ρ) vector session hGenerated
      exact hPartners.fits.inStep (Handoff.steady_producer vector) { vector } policy hStart hRunning
        hSeat hFollow
  | consumer policy =>
      have hPartners := Handoff.partners (ρ := ρ) none session hGenerated
      exact hPartners.fits'.inStep (Handoff.steady_consumer none) {} policy hStart hRunning hSeat
        hFollow
  | alice policy =>
      have hPartners := Threshold.partners (ρ := ρ) session hGenerated
      exact hPartners.fits.inStep Threshold.steady_alice {} policy hStart hRunning hSeat hFollow
  | bob policy =>
      have hPartners := Threshold.partners (ρ := ρ) session hGenerated
      exact hPartners.fits'.inStep Threshold.steady_bob {} policy hStart hRunning hSeat hFollow

/-- Bob asks for what Alice has not handed over yet, while an outsider writes in their session. -/
def polls : List Event :=
  [.receive 1, .serve 1, .outside .default (.send .ct1 [0]), .receive 1, .serve 1,
    .outside .default (.disconnect .alice), .receive 1, .serve 1]

theorem polls_wait : (Threshold.sample.follow? polls).any fun exchange =>
    exchange.seats[1]?.any fun seat => seat.inbox = [.bare (.nack .rnd1PubKey)] &&
      !seat.participant.halted && seat.isLive := by
  decide +kernel

/-- A Bob who polls for Alice's key has one request on its way, answered by a refusal. -/
theorem in_step_sample :
    ∃ exchange seat, Threshold.sample.follow? polls = some exchange ∧
      exchange.seats[1]? = some seat ∧ seat.inbox = [.bare (.nack .rnd1PubKey)] ∧
      InStep seat := by
  obtain ⟨exchange, hFollow, hAny⟩ := (Option.any_eq_true _ _).mp polls_wait
  obtain ⟨seat, hSeat, hWaits⟩ := (Option.any_eq_true _ _).mp hAny
  simp only [Bool.and_eq_true, decide_eq_true_eq, Bool.not_eq_true', Seat.isLive,
    Option.isNone_iff_eq_none] at hWaits
  obtain ⟨⟨hInbox, hLive⟩, hGoing⟩ := hWaits
  obtain ⟨now, hNow, hInStep⟩ := Honest.in_step (i := 1) (.bob {})
    (show Context.generate ⟨16, 2⟩ = .ok ⟨16, 2⟩ by decide) rfl ⟨.empty, rfl⟩ rfl hFollow
  obtain rfl := Option.some.inj (hNow.symm.trans hSeat)
  exact ⟨exchange, now, hFollow, hSeat, hInbox, hInStep hLive hGoing⟩

end Exchange

end CipherRelay
