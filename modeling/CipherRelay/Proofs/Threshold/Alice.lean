import CipherRelay.Proofs.Threshold.Conduct
/-!
The actions of Alice. Each of them leads from what she knows in one state to what she knows in the
next one.
-/
namespace CipherRelay.Threshold.Alice

open Party Scheme

variable {cc : Context} (d : Draws cc) {ρ : Type} (source : ρ)

/-- Alice keeps the keys of round 1 that she draws, and hands her public key over. -/
theorem onContext_eq [RandomSource ρ] (h : cc.IsValid) :
    ∃ alice mask product sums after, onContext (.send .cryptoContext (Artifact.encode cc))
        (knows d .requestCC, source) =
      .ok (.send (.send .rnd1PubKey
          (Draws.payload { d with alice, mask, product, sums } .rnd1PubKey)) .sendRnd1PubKey)
        (knows { d with alice, mask, product, sums } .sendRnd1PubKey, after) := by
  obtain ⟨alice, mask, first, hKeys⟩ := h.keyGen_eq_ok source
  obtain ⟨product, second, hProduct⟩ := h.productKey_eq_ok alice first
  obtain ⟨sums, after, hSums⟩ := h.sumKeys_eq_ok alice second
  refine ⟨alice, mask, product, sums, after, ?_⟩
  simp only [onContext, Message.send, Action.decode_encode, pure_bind]
  rw [Draw.bind_eq (Action.draw_eq hKeys _), Draw.bind_eq (Action.draw_eq hProduct _),
    Draw.bind_eq (Action.draw_eq hSums _)]
  rfl

theorem onContext_eq_crash [RandomSource ρ] (h : ¬cc.HasRoom) (l : Knowledge) :
    onContext (.send .cryptoContext (Artifact.encode cc)) (l, source) =
      .error (.crash .capacity) (l, source) := by
  simp only [onContext, Message.send, Action.decode_encode, pure_bind]
  exact Action.keyGen_bind_eq_crash h _ l source

/-- Alice sends her first product key and does not keep it. -/
theorem onPubKeyStored_eq (message : Message) :
    onPubKeyStored message (knows d .sendRnd1PubKey, source) =
      .ok (.send (.send .rnd1EvalMultKey (d.payload .rnd1EvalMultKey)) .sendRnd1EvalMultKey)
        (knows d .sendRnd1EvalMultKey, source) := rfl

theorem onMultKeyStored_eq (message : Message) :
    onMultKeyStored message (knows d .sendRnd1EvalMultKey, source) =
      .ok (.send (.send .rnd1EvalSumKeys (d.payload .rnd1EvalSumKeys)) .sendRnd1EvalSumKeys)
        (knows d .sendRnd1EvalSumKeys, source) := rfl

theorem onSharedKey_eq :
    onSharedKey (.send .rnd2SharedKey (d.payload .rnd2SharedKey))
        (knows d .requestRnd2SharedKey, source) =
      .ok (.send (.request .rnd2EvalMultAB) .requestRnd2EvalMultAB)
        (knows d .requestRnd2EvalMultAB, source) := by
  simp only [onSharedKey, Message.send, Draws.payload, Action.decode_encode, pure_bind]
  rfl

/-- She keeps Bob's first half of the product key until she has the second. -/
theorem onMultAB_eq :
    onMultAB (.send .rnd2EvalMultAB (d.payload .rnd2EvalMultAB))
        (knows d .requestRnd2EvalMultAB, source) =
      .ok (.send (.request .rnd2EvalMultBAB) .requestRnd2EvalMultBAB)
        (knows d .requestRnd2EvalMultBAB, source) := by
  simp only [onMultAB, Message.send, Draws.payload, Action.decode_encode, pure_bind]
  rfl

/-- With both halves she completes the product key and sends it. -/
theorem onMultBAB_eq (h : cc.IsValid) :
    onMultBAB (.send .rnd2EvalMultBAB (d.payload .rnd2EvalMultBAB))
        (knows d .requestRnd2EvalMultBAB, source) =
      .ok (.send (.send .rnd3EvalMultFinal (d.payload .rnd3EvalMultFinal)) .sendRnd3EvalMultFinal)
        (knows d .sendRnd3EvalMultFinal, source) := by
  simp only [onMultBAB, knows, Draws.aliceKeys, Message.send, Draws.payload, Action.decode_encode,
    pure_bind, Action.data_bind, Action.require_some, h.productKeyFinal_eq_ok, Action.engine_ok]
  rfl

theorem onSumKeys_eq :
    onSumKeys (.send .rnd2EvalSumKeysJoin (d.payload .rnd2EvalSumKeysJoin))
        (knows d .requestRnd2EvalSumKeysJoin, source) =
      .ok (.send (.request .ct1) .requestCt1) (knows d .requestCt1, source) := by
  simp only [onSumKeys, Message.send, Draws.payload, Action.decode_encode, pure_bind]
  rfl

/-- She asks for the ciphertexts one after another. -/
theorem onCiphertext_first :
    onCiphertext (.send .ct1 (d.payload .ct1)) (knows d .requestCt1, source) =
      .ok (.send (.request .ct2) .requestCt2) (knows d .requestCt2, source) := by
  simp only [onCiphertext, Message.send, Draws.payload, Action.decode_encode, pure_bind]
  rfl

theorem onCiphertext_second :
    onCiphertext (.send .ct2 (d.payload .ct2)) (knows d .requestCt2, source) =
      .ok (.send (.request .ct3) .requestCt3) (knows d .requestCt3, source) := by
  simp only [onCiphertext, Message.send, Draws.payload, Action.decode_encode, pure_bind]
  rfl

/-- After the third one she evaluates the operations and asks for Bob's first share. -/
theorem onCiphertext_third (h : cc.IsValid) :
    onCiphertext (.send .ct3 (d.payload .ct3)) (knows d .requestCt3, source) =
      .ok (.send (.request (.partialLead .add)) (.requestLead .add))
        (knows d (.requestLead .add), source) := by
  have hEvaluate := d.evaluate_eq d.aliceKeys none h source
  simp only [onCiphertext, Message.send, Draws.payload, Action.decode_encode, pure_bind]
  exact Draw.bind_eq hEvaluate _

variable (operation : Operation)

/-- Alice and Bob's shares fuse to what the operation gives on the inputs. -/
theorem fuseLead_eq (h : cc.IsValid) (verified : List Operation) :
    fuseLead operation (d.leadShare operation) (d.evaluated d.aliceKeys none verified, source) =
      .ok (d.mainShare operation, cc.centered (wanted cc operation))
        (d.evaluated d.aliceKeys none verified, source) := by
  have hResult := d.resultFor_eq d.aliceKeys none operation verified source
  have hMain : cc.mainShare d.aliceKeys.privateKey (cc.ciphertext (d.resultParts operation)) =
      .ok (d.mainShare operation) := h.mainShare_eq_ok d.alice _
  have hContext : (d.evaluated d.aliceKeys none verified).context = some cc := rfl
  have hKeys : (d.evaluated d.aliceKeys none verified).keys = some d.aliceKeys := rfl
  simp only [fuseLead, Action.data_bind, hContext, hKeys, Action.require_some, pure_bind]
  rw [Draw.bind_eq hResult]
  simp only [hMain, Action.engine_ok, pure_bind, d.fuse_eq operation h]
  rfl

theorem operationOf_lead (payload : Bytes) :
    Knowledge.operationOf (Message.send (.partialLead operation) payload).tag =
      (pure operation : Action Knowledge ρ Operation) := rfl

/-- What Alice fuses is as expected, and she hands her share over. -/
theorem onLead_eq (h : cc.IsValid) :
    onLead (.send (.partialLead operation) (d.payload (.partialLead operation)))
        (knows d (.requestLead operation), source) =
      .ok (.send (.send (.partialMain operation) (d.payload (.partialMain operation)))
          (.sendMain operation))
        (knows d (.sendMain operation), source) := by
  have hFuse := fuseLead_eq d source operation h (Operation.before operation)
  have hCheck := d.check_eq d.aliceKeys none operation (Operation.before operation) h source
  simp only [onLead, operationOf_lead, pure_bind]
  simp only [Message.send, Draws.payload, Action.decode_encode, pure_bind, knows]
  rw [Draw.bind_eq hFuse]
  exact Draw.bind_eq hCheck _

end CipherRelay.Threshold.Alice
