import CipherRelay.Proofs.Handoff.Paths
import CipherRelay.Proofs.Threshold.Paths
/-!
The paths of the four roles. What a role sends is fixed in advance, and nothing that it hears makes
it send anything else.
-/
namespace CipherRelay

open Party Handoff Threshold

/-- What each role sends, in order. With the last message it takes leave. -/
def Role.route : Role → List Move
  | .producer =>
      [.send (.request .cryptoContext), .send (.send .privateKey), .send (.send .ciphertext),
        .send (.request .vecInt), .halt (.disconnect .producer)]
  | .consumer =>
      [.send (.request .cryptoContext), .send (.send .publicKey),
        .send (.request .reEncryptionKey), .send (.request .ciphertext), .send (.send .vecInt),
        .send (.request .ciphertext), .halt (.disconnect .consumer)]
  | .alice =>
      [.send (.request .cryptoContext), .send (.send .rnd1PubKey),
        .send (.send .rnd1EvalMultKey), .send (.send .rnd1EvalSumKeys),
        .send (.request .rnd2SharedKey), .send (.request .rnd2EvalMultAB),
        .send (.request .rnd2EvalMultBAB), .send (.send .rnd3EvalMultFinal),
        .send (.request .rnd2EvalSumKeysJoin), .send (.request .ct1), .send (.request .ct2),
        .send (.request .ct3), .send (.request (.partialLead .add)),
        .send (.send (.partialMain .add)), .send (.request (.partialLead .mult)),
        .send (.send (.partialMain .mult)), .send (.request (.partialLead .sum)),
        .send (.send (.partialMain .sum)), .send (.request (.partialLead .sum)),
        .halt (.disconnect .alice)]
  | .bob =>
      [.send (.request .cryptoContext), .send (.request .rnd1PubKey),
        .send (.request .rnd1EvalMultKey), .send (.request .rnd1EvalSumKeys),
        .send (.send .rnd2SharedKey), .send (.send .rnd2EvalMultAB),
        .send (.send .rnd2EvalMultBAB), .send (.send .rnd2EvalSumKeysJoin),
        .send (.request .rnd3EvalMultFinal), .send (.send .ct1), .send (.send .ct2),
        .send (.send .ct3), .send (.send (.partialLead .add)),
        .send (.request (.partialMain .add)), .send (.send (.partialLead .mult)),
        .send (.request (.partialMain .mult)), .send (.send (.partialLead .sum)),
        .send (.request (.partialMain .sum)), .halt (.disconnect .bob)]

variable {ρ : Type} [RandomSource ρ]

namespace Party

/-- Every role walks its path. Whatever a participant hears, whatever has failed before, and
whatever the sources are that it draws from, it sends a first part of the route of its role. It is
in no state twice, always finds a step, and misses no data unless something has failed. -/
theorem every_role_walks_its_path (policy : RetryPolicy) (turns : List (ρ × Message)) :
    (∀ vector, (Machine.start Producer.table { vector } policy).Walks Role.producer.route turns) ∧
    (Machine.start Consumer.table {} policy).Walks Role.consumer.route turns ∧
    (Machine.start Alice.table {} policy).Walks Role.alice.route turns ∧
    (Machine.start Bob.table {} policy).Walks Role.bob.route turns := by
  have hAlice : Alice.way.ready .getMessage {} := by simp [Alice.way, AliceState.pieces]
  have hBob : Bob.way.ready .getMessage {} := by simp [Bob.way, BobState.pieces]
  have hNone : Alice.way.sound .getMessage {} := rfl
  refine ⟨fun vector => ?_, ?_, ?_, ?_⟩
  · exact Producer.guides.walks trivial trivial policy turns
  · exact Consumer.guides.walks trivial trivial policy turns
  · exact Alice.guides.walks hNone hAlice policy turns
  · exact Bob.guides.walks trivial hBob policy turns

end Party

end CipherRelay
