import CipherRelay.Proofs.Handoff.Manners
import CipherRelay.Proofs.Threshold.Manners
/-!
Failures of the four roles. Whoever sends a party its messages can make it crash, but only with a
context whose modulus is zero or does not fit a signed word, or whose slots are more than a vector
can have entries. A message on which a party fails leaves it as it was, but for three steps that
change the data before they are done: a producer loses a vector that is too long for the slots,
Alice keeps a third ciphertext that she cannot evaluate, and Bob keeps a product key though the
inputs have no slot each.
-/
namespace CipherRelay.Party

open Scheme Handoff Threshold

section Crashes

variable {ρ : Type} [RandomSource ρ]

/-- Every role withstands any messages in any order, whatever their tags and payloads are, but for
contexts with a modulus that is zero or too large, or with too many slots. -/
theorem every_role_withstands (policy : RetryPolicy) (turns : List (ρ × Message)) :
    (∀ vector, (Machine.start Producer.table { vector } policy).Withstands turns) ∧
    (Machine.start Consumer.table {} policy).Withstands turns ∧
    (Machine.start Alice.table {} policy).Withstands turns ∧
    (Machine.start Bob.table {} policy).Withstands turns := by
  have hNone : Alice.way.sound .getMessage {} := rfl
  refine ⟨fun vector => ?_, ?_, ?_, ?_⟩
  · exact Producer.governs.withstands (by rintro ⟨⟩) rfl policy turns
  · exact Consumer.governs.withstands trivial rfl policy turns
  · exact Alice.governs.withstands hNone rfl policy turns
  · exact Bob.governs.withstands trivial rfl policy turns

/-- A context with modulus zero makes a producer draw from an empty range. -/
theorem producer_crashes_on_zero_modulus :
    (Machine.start Producer.table {} {}).upshots
        [((⟨0⟩ : Congruential), .bare .serverAccept),
          (⟨0⟩, .send .cryptoContext (Artifact.encode (⟨4, 0⟩ : Context)))] =
      [.ok (.send (.request .cryptoContext)), .error (.crash .emptyRange)] := by
  decide +kernel

/-- With a modulus that is not to blame, so many slots make a consumer ask for too much memory. -/
example :
    (Machine.start Consumer.table {} {}).upshots
        [((⟨0⟩ : Congruential), .bare .serverAccept),
          (⟨0⟩, .send .cryptoContext (Artifact.encode (⟨0x1000000000000000, 65537⟩ : Context)))] =
      [.ok (.send (.request .cryptoContext)), .error (.crash .capacity)] := by
  decide +kernel

end Crashes

section Rejections

variable {S L ρ : Type} [DecidableEq S] [ToString S]

/-- Whether a machine that fails on a message, and has not crashed before, is as it was, but for
what it may lose. -/
def Machine.Rejects (start : Machine S L ρ) (loses : S → Message → L → PartyError → L → Prop)
    (turns : List (ρ × Message)) : Prop :=
  Calm (start.upshots turns) → ∀ source message error,
    ((start.after turns).onMessage source message).outcome = .error (.error error) →
      ((start.after turns).onMessage source message).machine = start.after turns ∨
        ∃ left, loses (start.after turns).state message (start.after turns).data error left ∧
          ((start.after turns).onMessage source message).machine =
            { start.after turns with data := left }

variable [RandomSource ρ]

/-- What each role has lost where it has failed on a message: a producer its vector, which is longer
than the slots, a consumer nothing; Alice has a ciphertext too many, and Bob the product key, though
there are fewer slots than inputs. -/
theorem every_role_rejects (policy : RetryPolicy) (turns : List (ρ × Message)) :
    (∀ vector, (Machine.start Producer.table { vector } policy).Rejects
      (fun s _ producer error left => producer.Loses s error left) turns) ∧
    (Machine.start Consumer.table {} policy).Rejects (fun _ _ _ _ _ => False) turns ∧
    (Machine.start Alice.table {} policy).Rejects
      (fun s message known _ left => Alice.Loses s message known left) turns ∧
    (Machine.start Bob.table {} policy).Rejects Bob.Loses turns := by
  have hNone : Alice.way.sound .getMessage {} := rfl
  refine ⟨fun vector hCalm source message error hError => ?_,
    fun hCalm source message error hError => ?_, fun hCalm source message error hError => ?_,
    fun hCalm source message error hError => ?_⟩
  · rcases Producer.governs.rejects (by rintro ⟨⟩) policy hCalm hError with
      hSame | ⟨left, rfl | hLoses, hLeft⟩
    · exact .inl hSame
    · exact .inl hLeft
    · exact .inr ⟨left, hLoses, hLeft⟩
  · rcases Consumer.governs.rejects trivial policy hCalm hError with hSame | ⟨left, rfl, hLeft⟩
    · exact .inl hSame
    · exact .inl hLeft
  · rcases Alice.governs.rejects hNone policy hCalm hError with
      hSame | ⟨left, ⟨rfl, -⟩ | hLoses, hLeft⟩
    · exact .inl hSame
    · exact .inl hLeft
    · exact .inr ⟨left, hLoses, hLeft⟩
  · rcases Bob.governs.rejects trivial policy hCalm hError with
      hSame | ⟨left, ⟨rfl, -⟩ | hLoses, hLeft⟩
    · exact .inl hSame
    · exact .inl hLeft
    · exact .inr ⟨left, hLoses, hLeft⟩

/-- The messages that lead a producer to the encryption of its vector, over four slots. -/
def untilEncryption : List (Congruential × Message) :=
  [(⟨0⟩, .bare .serverAccept),
    (⟨0⟩, .send .cryptoContext (Artifact.encode (⟨4, 65537⟩ : Context)))]

/-- A producer whose vector has five values fails to encrypt it and is left without it. -/
theorem producer_loses_its_vector :
    (((Machine.start Producer.table { vector := some [1, 2, 3, 4, 5] } {}).after
        untilEncryption).onMessage ⟨0⟩ (.bare (.ack .privateKey))).outcome =
          .error (.error (.engine (.dimensionMismatch 4 5))) ∧
      ((Machine.start Producer.table { vector := some [1, 2, 3, 4, 5] } {}).after
        untilEncryption).data.vector = some [1, 2, 3, 4, 5] ∧
      (((Machine.start Producer.table { vector := some [1, 2, 3, 4, 5] } {}).after
        untilEncryption).onMessage ⟨0⟩ (.bare (.ack .privateKey))).machine.data.vector = none := by
  decide +kernel

end Rejections

end CipherRelay.Party
