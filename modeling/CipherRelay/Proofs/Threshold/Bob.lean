import CipherRelay.Proofs.Threshold.Conduct
/-!
The actions of Bob. Each of them leads from what he knows in one state to what he knows in the next
one; only his encryption of the inputs may fail, where the slots do not hold them.
-/
namespace CipherRelay.Threshold.Bob

open Party Scheme

variable {cc : Context} (d : Draws cc) {ρ : Type} (source : ρ)

/-- Bob keeps the context and waits for Alice's key. He draws nothing yet. -/
theorem onContext_eq :
    onContext (.send .cryptoContext (Artifact.encode cc)) (knows d .requestCC, source) =
      .ok (.send (.request .rnd1PubKey) .requestRnd1PubKey)
        (knows d .requestRnd1PubKey, source) := by
  simp only [onContext, Message.send, Action.decode_encode, pure_bind]
  rfl

/-- Bob keeps the key pair that he draws on top of Alice's public key. -/
theorem onPubKey_eq [RandomSource ρ] (h : cc.IsValid) :
    ∃ bob after, onPubKey (.send .rnd1PubKey (d.payload .rnd1PubKey))
        (knows d .requestRnd1PubKey, source) =
      .ok (.send (.request .rnd1EvalMultKey) .requestRnd1EvalMultKey)
        (knows { d with bob } .requestRnd1EvalMultKey, after) := by
  obtain ⟨bob, after, hKeys⟩ := h.jointKeyGen_eq_ok d.leadParts source
  refine ⟨bob, after, ?_⟩
  simp only [onPubKey, knows, Message.send, Draws.payload, Action.decode_encode, pure_bind,
    Action.data_bind, Action.require_some]
  rw [Draw.bind_eq (Action.draw_eq hKeys _)]
  rfl

/-- Bob keeps Alice's first product key and asks for her rotation keys. -/
theorem onMultKey_eq :
    onMultKey (.send .rnd1EvalMultKey (d.payload .rnd1EvalMultKey))
        (knows d .requestRnd1EvalMultKey, source) =
      .ok (.send (.request .rnd1EvalSumKeys) .requestRnd1EvalSumKeys)
        (knows d .requestRnd1EvalSumKeys, source) := by
  simp only [onMultKey, Message.send, Draws.payload, Action.decode_encode, pure_bind]
  rfl

/-- With the rotation keys of round 1 he has all that he needs, and sends the joint key. -/
theorem onSumKeys_eq :
    onSumKeys (.send .rnd1EvalSumKeys (d.payload .rnd1EvalSumKeys))
        (knows d .requestRnd1EvalSumKeys, source) =
      .ok (.send (.send .rnd2SharedKey (d.payload .rnd2SharedKey)) .sendRnd2SharedKey)
        (knows d .sendRnd2SharedKey, source) := by
  simp only [onSumKeys, Message.send, Draws.payload, Action.decode_encode, pure_bind]
  rfl

theorem onSharedKeyStored_eq (h : cc.IsValid) (message : Message) :
    onSharedKeyStored message (knows d .sendRnd2SharedKey, source) =
      .ok (.send (.send .rnd2EvalMultAB (d.payload .rnd2EvalMultAB)) .sendRnd2EvalMultAB)
        (knows d .sendRnd2EvalMultAB, source) := by
  simp only [onSharedKeyStored, knows, Draws.bobKeys, Action.data_bind, Action.require_some,
    pure_bind, h.productKeyAB_eq_ok, Action.engine_ok]
  rfl

theorem onABStored_eq (h : cc.IsValid) (message : Message) :
    onABStored message (knows d .sendRnd2EvalMultAB, source) =
      .ok (.send (.send .rnd2EvalMultBAB (d.payload .rnd2EvalMultBAB)) .sendRnd2EvalMultBAB)
        (knows d .sendRnd2EvalMultBAB, source) := by
  simp only [onABStored, knows, Draws.bobKeys, Action.data_bind, Action.require_some, pure_bind,
    h.productKeyBAB_eq_ok, Action.engine_ok]
  rfl

/-- At the end of round 2 he joins the rotation keys. -/
theorem onBABStored_eq (h : cc.IsValid) (message : Message) :
    onBABStored message (knows d .sendRnd2EvalMultBAB, source) =
      .ok (.send (.send .rnd2EvalSumKeysJoin (d.payload .rnd2EvalSumKeysJoin))
          .sendRnd2EvalSumKeysJoin)
        (knows d .sendRnd2EvalSumKeysJoin, source) := by
  simp only [onBABStored, knows, Draws.bobKeys, Action.data_bind, Action.require_some, pure_bind,
    h.sumKeysJoin_eq_ok, Action.engine_ok]
  rfl

section Final

variable [RandomSource ρ] {known : Knowledge} {key : PublicKey} (product : SwitchKey)

/-- With the three ciphertexts Bob keeps the product key, and hands the first of them over. -/
theorem onFinal_of_encrypted (hContext : known.context = some cc)
    (hKey : known.jointKey = some key) {source₁ source₂ after : ρ} {ct1 ct2 ct3 : Ciphertext}
    (hFirst : cc.encrypt key firstInput source = .ok ct1 source₁)
    (hSecond : cc.encrypt key secondInput source₁ = .ok ct2 source₂)
    (hThird : cc.encrypt key thirdInput source₂ = .ok ct3 after) :
    onFinal (.send .rnd3EvalMultFinal (Artifact.encode product)) (known, source) =
      .ok (.send (.send .ct1 (Artifact.encode ct1)) .sendCt1)
        ({ known with multKey := some product, cts := [ct1, ct2, ct3] }, after) := by
  simp only [onFinal, Message.send, Action.decode_encode, pure_bind, Action.change_bind,
    Action.data_bind, hContext, hKey, Action.require_some]
  rw [Draw.bind_eq (Action.draw_eq hFirst _), Draw.bind_eq (Action.draw_eq hSecond _),
    Draw.bind_eq (Action.draw_eq hThird _)]
  rfl

/-- Where the first encryption fails, Bob fails with it; he has kept the product key. -/
theorem onFinal_of_refused (hContext : known.context = some cc)
    (hKey : known.jointKey = some key) {error : EngineError} {after : ρ}
    (hFirst : cc.encrypt key firstInput source = .error (.error error) after) :
    onFinal (.send .rnd3EvalMultFinal (Artifact.encode product)) (known, source) =
      .error (.error (.engine error)) ({ known with multKey := some product }, after) := by
  simp only [onFinal, Message.send, Action.decode_encode, pure_bind, Action.change_bind,
    Action.data_bind, hContext, hKey, Action.require_some]
  rw [Draw.bind_eq_error (Action.draw_eq_error hFirst _)]
  rfl

/-- Bob encrypts the inputs where the slots hold them. -/
theorem onFinal_eq (h : cc.IsValid) (hLarge : 12 ≤ cc.ringDimension.toNat) :
    ∃ first second third after, onFinal (.send .rnd3EvalMultFinal (d.payload .rnd3EvalMultFinal))
        (knows d .requestRnd3EvalMultFinal, source) =
      .ok (.send (.send .ct1 (Draws.payload { d with first, second, third } .ct1)) .sendCt1)
        (knows { d with first, second, third } .sendCt1, after) := by
  obtain ⟨first, source₁, hFirst⟩ :=
    h.encrypt_eq_ok d.keyParts (show firstInput.length ≤ _ from hLarge) source
  obtain ⟨second, source₂, hSecond⟩ :=
    h.encrypt_eq_ok d.keyParts (show secondInput.length ≤ _ from hLarge) source₁
  obtain ⟨third, after, hThird⟩ :=
    h.encrypt_eq_ok d.keyParts (show thirdInput.length ≤ _ from hLarge) source₂
  exact ⟨first, second, third, after,
    onFinal_of_encrypted _ (cc.switchKey d.productParts) rfl rfl hFirst hSecond hThird⟩

/-- Where the slots do not hold the inputs, Bob's encryption fails. -/
theorem onFinal_eq_error (h : cc.IsValid) (hSmall : cc.ringDimension.toNat < 12) :
    ∃ failure data after, onFinal (.send .rnd3EvalMultFinal (d.payload .rnd3EvalMultFinal))
      (knows d .requestRnd3EvalMultFinal, source) = .error failure (data, after) := by
  have hFirst := h.encrypt_eq_error d.keyParts (show _ < firstInput.length from hSmall) source
  exact ⟨_, _, _, onFinal_of_refused _ (cc.switchKey d.productParts) rfl rfl hFirst⟩

end Final

theorem onCiphertextStored_first :
    onCiphertextStored (.bare (.ack .ct1)) (knows d .sendCt1, source) =
      .ok (.send (.send .ct2 (d.payload .ct2)) .sendCt2) (knows d .sendCt2, source) := rfl

theorem onCiphertextStored_second :
    onCiphertextStored (.bare (.ack .ct2)) (knows d .sendCt2, source) =
      .ok (.send (.send .ct3 (d.payload .ct3)) .sendCt3) (knows d .sendCt3, source) := rfl

variable (operation : Operation)

/-- His share is the lead share of the result of the operation. -/
theorem leadShare_eq (h : cc.IsValid) (verified : List Operation) :
    leadShare operation (d.evaluated d.bobKeys (some d.bobKeys.publicKey) verified, source) =
      .ok (d.leadShare operation)
        (d.evaluated d.bobKeys (some d.bobKeys.publicKey) verified, source) := by
  have hResult := d.resultFor_eq d.bobKeys (some d.bobKeys.publicKey) operation verified source
  have hLead : cc.leadShare d.bobKeys.privateKey (cc.ciphertext (d.resultParts operation)) =
      .ok (d.leadShare operation) := h.leadShare_eq_ok d.bob _
  simp only [leadShare, Action.data_bind]
  simp only [Draws.evaluated, Draws.supplied, Action.require_some, pure_bind] at hResult ⊢
  rw [Draw.bind_eq hResult, hLead]
  rfl

theorem sendLead_eq (h : cc.IsValid) :
    sendLead operation (knows d (.sendLead operation), source) =
      .ok (.send (.send (.partialLead operation) (d.payload (.partialLead operation)))
          (.sendLead operation))
        (knows d (.sendLead operation), source) := by
  rw [sendLead, knows, Draw.bind_eq (leadShare_eq d source operation h _)]
  rfl

/-- After the third ciphertext he evaluates the operations and sends his first share. -/
theorem onCiphertextStored_third (h : cc.IsValid) :
    onCiphertextStored (.bare (.ack .ct3)) (knows d .sendCt3, source) =
      .ok (.send (.send (.partialLead .add) (d.payload (.partialLead .add))) (.sendLead .add))
        (knows d (.sendLead .add), source) := by
  have hEvaluate := d.evaluate_eq d.bobKeys (some d.bobKeys.publicKey) h source
  simp only [onCiphertextStored]
  exact (Draw.bind_eq hEvaluate _).trans (sendLead_eq d source .add h)

/-- Bob's share and Alice's fuse to what the operation gives on the inputs. -/
theorem fuseMain_eq (h : cc.IsValid) (verified : List Operation) :
    fuseMain operation (d.mainShare operation)
        (d.evaluated d.bobKeys (some d.bobKeys.publicKey) verified, source) =
      .ok (cc.centered (wanted cc operation))
        (d.evaluated d.bobKeys (some d.bobKeys.publicKey) verified, source) := by
  have hLead := leadShare_eq d source operation h verified
  simp only [fuseMain, Action.data_bind]
  simp only [Draws.evaluated, Draws.supplied, Action.require_some, pure_bind] at hLead ⊢
  rw [Draw.bind_eq hLead, d.fuse_eq operation h]
  rfl

/-- What Bob fuses is as expected, and he goes on to the next operation or takes leave. -/
theorem onMain_eq (h : cc.IsValid) :
    onMain (.send (.partialMain operation) (d.payload (.partialMain operation)))
        (knows d (.requestMain operation), source) =
      operation.next?.elim (return .halt (.disconnect .bob)) sendLead
        (d.evaluated d.bobKeys (some d.bobKeys.publicKey)
          (Operation.before operation ++ [operation]), source) := by
  have hOperation : Knowledge.operationOf (Message.send (.partialMain operation)
      (d.payload (.partialMain operation))).tag = (pure operation : Action Knowledge ρ _) := rfl
  have hFuse := fuseMain_eq d source operation h (Operation.before operation)
  have hCheck := d.check_eq d.bobKeys (some d.bobKeys.publicKey) operation
    (Operation.before operation) h source
  simp only [onMain, hOperation, pure_bind]
  simp only [Message.send, Draws.payload, Action.decode_encode, pure_bind, knows]
  rw [Draw.bind_eq hFuse, Draw.bind_eq hCheck]
  cases operation <;> rfl

/-- A share of Alice that confirms an operation brings him to the next one. -/
theorem onMain_next (h : cc.IsValid) {next : Operation} (hNext : operation.next? = some next) :
    onMain (.send (.partialMain operation) (d.payload (.partialMain operation)))
        (knows d (.requestMain operation), source) =
      .ok (.send (.send (.partialLead next) (d.payload (.partialLead next))) (.sendLead next))
        (knows d (.sendLead next), source) := by
  have hBefore : Operation.before operation ++ [operation] = Operation.before next := by
    cases operation <;> cases hNext <;> rfl
  rw [onMain_eq d source operation h, hNext, hBefore]
  exact sendLead_eq d source next h

/-- After the last operation he takes leave, with all of them verified. -/
theorem onMain_last (h : cc.IsValid) :
    onMain (.send (.partialMain .sum) (d.payload (.partialMain .sum)))
        (knows d (.requestMain .sum), source) =
      .ok (.halt (.disconnect .bob))
        (d.evaluated d.bobKeys (some d.bobKeys.publicKey) Operation.all, source) := by
  rw [onMain_eq d source .sum h]
  rfl

end CipherRelay.Threshold.Bob
