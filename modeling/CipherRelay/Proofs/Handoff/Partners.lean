import CipherRelay.Proofs.Exchange.Runs
import CipherRelay.Proofs.Handoff.Conduct
import Mathlib.Tactic.IntervalCases
/-!
Producer and consumer play their parts towards each other. Each action does what the conduct says,
and each draw is made while the other party cannot have reached a state that depends on it.
-/
namespace CipherRelay.Handoff

open Exchange Party Scheme

variable {ρ : Type} [RandomSource ρ] {cc : Context} {own : Option (List Int64)}
  {d d' : Draws cc own} {session : SessionId}

/-- A consumer is not past its request for a derived key while the producer's private key has not
been handed over, and until then nothing of it depends on the producer's keys. -/
theorem producer_keeps_keys (secret mask : cc.Slots) :
    (producer cc own : Conduct _ _ _ ρ).Keeps (consumer cc own : Conduct _ _ _ ρ)
      (setting cc own session) 1 d { d with secret, mask } := by
  refine .inr ⟨3, ?_, fun j hj => ?_, fun kind hKind => ?_⟩
  · rw [course_producer, course_consumer]
    decide
  · interval_cases j <;> rfl
  · simp [course_producer, course_consumer, producerCourse, consumerCourse] at hKind
    subst hKind
    rfl

/-- A consumer has no ciphertext while it has not been handed over. -/
theorem producer_keeps_vector (vector : List Int64) (encrypts : Encrypts cc own vector)
    (cover : cc.Slots) :
    (producer cc own : Conduct _ _ _ ρ).Keeps (consumer cc own : Conduct _ _ _ ρ)
      (setting cc own session) 2 d { d with vector, encrypts, cover } := by
  refine .inr ⟨4, ?_, fun j hj => ?_, fun kind hKind => ?_⟩
  · rw [course_producer, course_consumer]
    decide
  · interval_cases j <;> rfl
  · simp [course_producer, course_consumer, producerCourse, consumerCourse] at hKind
    rcases hKind with (rfl | rfl) | rfl <;> rfl

/-- A producer knows nothing of the consumer's keys. -/
theorem consumer_keeps_keys (secret' mask' : cc.Slots) :
    (consumer cc own : Conduct _ _ _ ρ).Keeps (producer cc own : Conduct _ _ _ ρ)
      (setting cc own session) 1 d { d with secret', mask' } := by
  refine .inr ⟨4, ?_, fun j hj => ?_, fun kind hKind => ?_⟩
  · rw [course_producer, course_consumer]
    decide
  · interval_cases j <;> rfl
  · simp [course_producer, course_consumer, producerCourse, consumerCourse] at hKind
    rcases hKind with rfl | rfl <;> rfl

/-- Only the errand after the third one of a producer needs that it can encrypt. -/
theorem feasible_producer (hRoom : cc.HasRoom) {i : Nat} (hNext : i ≠ 2) (kind : ArtifactKind)
    (hStore : (producer cc own : Conduct _ _ _ ρ).course[i + 1]? = some (.store kind)) :
    (setting cc own session).feasible kind := by
  refine ⟨hRoom, ?_⟩
  rintro rfl
  match i, hNext, hStore with
  | 0, _, hStore | 1, _, hStore | 3, _, hStore | _ + 4, _, hStore => cases hStore

/-- A consumer hands no ciphertext over. -/
theorem feasible_consumer (hRoom : cc.HasRoom) {i : Nat} (kind : ArtifactKind)
    (hStore : (consumer cc own : Conduct _ _ _ ρ).course[i + 1]? = some (.store kind)) :
    (setting cc own session).feasible kind := by
  refine ⟨hRoom, ?_⟩
  rintro rfl
  exact absurd (List.mem_of_getElem? hStore) (show .store .ciphertext ∉ consumerCourse by decide)

theorem fits_producer (h : cc.IsGenerated) :
    (producer cc own : Conduct _ _ _ ρ).Fits (consumer cc own : Conduct _ _ _ ρ)
      (setting cc own session) where
  onMessage _ _ _ := rfl
  view _ _ := rfl
  step := Producer.get?_table
  start := ⟨rfl, rfl⟩
  suits := show Suits .producer producerCourse consumerCourse by decide
  advances i s hPath hStore _ d source := by
    rw [course_producer] at hStore
    -- A producer that has handed its private key over has had room for it.
    have hRoom : .store .privateKey ∈ producerCourse.take (i + 1) → cc.HasRoom :=
      fun hMem => (hStore _ hMem).1
    match i, hPath, hRoom with
    | 0, rfl, _ => exact .inl ⟨d, _, source, rfl, rfl, nofun, .inl rfl⟩
    | 1, rfl, _ =>
        by_cases hRoom : cc.HasRoom
        · obtain ⟨secret, mask, after, hContext⟩ :=
            Producer.onContext_eq (h.isValid hRoom) d source
          exact .inl ⟨_, _, after, hContext, rfl, feasible_producer hRoom (by decide),
            producer_keeps_keys secret mask⟩
        · exact .inr (.inl ⟨hRoom, source, Producer.onContext_eq_crash hRoom _ source⟩)
    | 2, rfl, hRoom =>
        have hValid := h.isValid (hRoom (by decide))
        rcases Producer.onPrivateKeyStored_eq hValid d (.bare (.ack .privateKey)) source with
          ⟨hFits, vector, encrypts, cover, after, hStored⟩ | hFails
        · exact .inl ⟨_, _, after, hStored, rfl, fun _ _ => ⟨hValid.hasRoom, fun _ => hFits⟩,
            producer_keeps_vector vector encrypts cover⟩
        · exact .inr (.inr hFails)
    | 3, rfl, hRoom =>
        exact .inl ⟨d, _, source, rfl, rfl, feasible_producer (hRoom (by decide)) (by decide),
          .inl rfl⟩
    | 4, rfl, hRoom =>
        have hValid := h.isValid (hRoom (by decide))
        exact .inl ⟨d, _, source, Producer.onResult_eq hValid d source, rfl,
          feasible_producer hValid.hasRoom (by decide), .inl rfl⟩

theorem fits_consumer (h : cc.IsGenerated) :
    (consumer cc own : Conduct _ _ _ ρ).Fits (producer cc own : Conduct _ _ _ ρ)
      (setting cc own session) where
  onMessage _ _ _ := rfl
  view _ _ := rfl
  step := Consumer.get?_table
  start := ⟨rfl, rfl⟩
  suits := show Suits .consumer consumerCourse producerCourse by decide
  advances i s hPath hStore _ d source := by
    rw [course_consumer] at hStore
    -- A consumer that has handed its public key over has had room for it.
    have hRoom : .store .publicKey ∈ consumerCourse.take (i + 1) → cc.HasRoom :=
      fun hMem => (hStore _ hMem).1
    match i, hPath, hRoom with
    | 0, rfl, _ => exact .inl ⟨d, _, source, rfl, rfl, nofun, .inl rfl⟩
    | 1, rfl, _ =>
        by_cases hRoom : cc.HasRoom
        · obtain ⟨secret', mask', after, hContext⟩ :=
            Consumer.onContext_eq (h.isValid hRoom) d source
          exact .inl ⟨_, _, after, hContext, rfl, feasible_consumer hRoom,
            consumer_keeps_keys secret' mask'⟩
        · exact .inr (.inl ⟨hRoom, source, Consumer.onContext_eq_crash hRoom _ source⟩)
    | 2, rfl, _ => exact .inl ⟨d, _, source, rfl, rfl, nofun, .inl rfl⟩
    | 3, rfl, _ => exact .inl ⟨d, _, source, Consumer.onReKey_eq d source, rfl, nofun, .inl rfl⟩
    | 4, rfl, hRoom =>
        have hValid := h.isValid (hRoom (by decide))
        exact .inl ⟨d, _, source, Consumer.onCiphertext_eq hValid d source, rfl,
          feasible_consumer hValid.hasRoom, .inl rfl⟩
    | 5, rfl, _ => exact .inl ⟨d, _, source, rfl, rfl, nofun, .inl rfl⟩
    | 6, rfl, _ => exact .inl ⟨d, _, source, rfl, rfl, nofun, .inl rfl⟩

/-- The relay derives the consumer's re-encryption key from the two keys, and only the consumer
depends on it. -/
theorem derives_consumer (h : cc.IsGenerated) :
    (consumer cc own : Conduct _ _ _ ρ).Derives (ρ := ρ) (producer cc own : Conduct _ _ _ ρ)
      (setting cc own session) := by
  refine fun _ => ⟨?_, fun hFeasible d source => ?_⟩
  · rw [course_producer]
    decide
  · obtain ⟨switch, after, hDerive⟩ := (h.isValid hFeasible.1).reKeyGen_eq_ok d.secret
      (Context.keyParts d.secret' d.mask') source
    refine ⟨{ d with switch }, _, after, ?_, rfl, fun kind hKind => ?_, fun s hErrand => ?_,
      fun j => ?_⟩
    · simp only [setting, Relay.Handler.derive, Draws.payload, Draws.privateKey_keys,
        Draws.publicKey_keys', Artifact.decode_encode, Draw.lift_engine, pure_bind]
      exact hDerive
    · cases kind <;> first | rfl | exact absurd rfl hKind
    · cases s <;> first | rfl | cases hErrand
    · cases hState : (producer cc own : Conduct _ _ _ ρ).path[j]? with
      | none => simp only [Conduct.knowsAt, hState]; rfl
      | some s => simp only [Conduct.knowsAt, hState]; cases s <;> rfl

/-- A producer and a consumer fit each other. -/
theorem partners (own : Option (List Int64)) (session : SessionId) (h : cc.IsGenerated) :
    (producer cc own : Conduct _ _ _ ρ).Partners (consumer cc own : Conduct _ _ _ ρ)
      (setting cc own session) where
  fits := fits_producer h
  fits' := fits_consumer h
  roles := show Role.producer ≠ .consumer by decide
  derives hFetch := by
    rw [course_producer] at hFetch
    exact absurd hFetch (by decide)
  derives' := derives_consumer h

end CipherRelay.Handoff
