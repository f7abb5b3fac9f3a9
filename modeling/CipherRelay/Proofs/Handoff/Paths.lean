import CipherRelay.Proofs.Exchange.Pace
import CipherRelay.Proofs.Handoff.Conduct
import CipherRelay.Proofs.Party.Paths
/-!
The paths of a producer and a consumer. Each action is given what its state keeps for it, decides on
the next state, and leaves what that state needs.
-/
namespace CipherRelay.Handoff

open Exchange Party Scheme

variable {ρ : Type} [RandomSource ρ]

namespace Producer

def way : Way ProducerState Producer where
  role := .producer
  path := [.getMessage, .requestCC, .genKeys, .genCT, .requestVecInt]
  asks s := s.errand.asks?
  sound _ _ := True
  ready s producer := match s with
    | .getMessage | .requestCC => True
    | .genKeys => producer.context.isSome ∧ producer.keys.isSome
    | .genCT | .requestVecInt => producer.context.isSome ∧ producer.keys.isSome ∧
        producer.ct.isSome ∧ producer.vector.isSome

variable {clean : Prop}

/-- The vector is taken out of the data, and may have been drawn. -/
theorem takeVector_meets (cc : Context) {producer : Producer} {s : ProducerState}
    {Q : List Int64 → Producer → Prop} (h : ∀ vector, Q vector { producer with vector := none }) :
    Action.Meets clean (way.sound s) producer
      (takeVector cc : Action Producer ρ (List Int64)) Q := by
  refine .data (.change id ?_)
  split
  · exact .pure (h _)
  · exact .draw fun drawn => .pure (h _)

omit [RandomSource ρ] in
/-- What a producer needs for its last step is there. -/
theorem verify_meets {returned : List Int64} {producer : Producer}
    (hReady : clean → way.ready .requestVecInt producer) {Q : Bool → Producer → Prop}
    (h : ∀ same after, Q same after) :
    Action.Meets clean (way.sound .requestVecInt) producer
      (verify returned : Action Producer ρ Bool) Q := by
  refine .data (.require (fun h => (hReady h).1) fun cc _ =>
    .require (fun h => (hReady h).2.1) fun keys _ =>
    .require (fun h => (hReady h).2.2.1) fun ct _ =>
    .require (fun h => (hReady h).2.2.2) fun vector _ =>
    .engine fun plain => .compute fun decrypted => .compute fun returned => .compute fun _ => ?_)
  simp only
  split
  · exact .pure (h _ _)
  · exact .change id (.pure (h _ _))

theorem guides : way.Guides (table : StepTable ProducerState Producer ρ) where
  start := rfl
  nodup := by decide
  size := rfl
  steps s _ := by
    refine ⟨_, get?_table s, fun message hTag clean l hReady => ?_⟩
    cases s with
    | getMessage => exact .pure ⟨by decide, rfl, trivial, fun _ => trivial⟩
    | requestCC =>
        refine .decode fun cc => .draw fun keys => .change id (.pure ?_)
        exact ⟨by decide, rfl, trivial, fun _ => ⟨rfl, rfl⟩⟩
    | genKeys =>
        refine .data (.require (fun h => (hReady h).1) fun cc hContext =>
          .require (fun h => (hReady h).2) fun keys hKeys => ?_)
        split
        · exact .bind (.fail trivial)
        · refine .bind (takeVector_meets cc fun vector =>
            ⟨trivial, .draw fun ct => .change id (.pure ?_)⟩)
          exact ⟨by decide, rfl, trivial, fun h => ⟨(hReady h).1, (hReady h).2, rfl, rfl⟩⟩
    | genCT => exact .pure ⟨by decide, rfl, trivial, hReady⟩
    | requestVecInt =>
        refine .decode fun returned =>
          .bind (verify_meets hReady fun same after => ⟨trivial, .pure ?_⟩)
        exact ⟨by decide, rfl⟩

end Producer

namespace Consumer

def way : Way ConsumerState Consumer where
  role := .consumer
  path := [.getMessage, .requestCC, .sendPublicKey, .requestReEncryptionKey, .requestCT,
    .sendVecInt, .awaitProducer]
  asks s := s.errand.asks?
  sound _ _ := True
  ready s consumer := match s with
    | .sendPublicKey | .requestReEncryptionKey => consumer.context.isSome ∧ consumer.keys.isSome
    | .requestCT => consumer.context.isSome ∧ consumer.keys.isSome ∧ consumer.reKey.isSome
    | _ => True

theorem guides : way.Guides (table : StepTable ConsumerState Consumer ρ) where
  start := rfl
  nodup := by decide
  size := rfl
  steps s _ := by
    refine ⟨_, get?_table s, fun message hTag clean l hReady => ?_⟩
    cases s with
    | getMessage | sendVecInt => exact .pure ⟨by decide, rfl, trivial, fun _ => trivial⟩
    | requestCC =>
        refine .decode fun cc => .draw fun keys => .change id (.pure ?_)
        exact ⟨by decide, rfl, trivial, fun _ => ⟨rfl, rfl⟩⟩
    | sendPublicKey => exact .pure ⟨by decide, rfl, trivial, hReady⟩
    | requestReEncryptionKey =>
        refine .decode fun reKey => .change id (.pure ?_)
        exact ⟨by decide, rfl, trivial, fun h => ⟨(hReady h).1, (hReady h).2, rfl⟩⟩
    | requestCT =>
        refine .data (.require (fun h => (hReady h).1) fun cc _ =>
          .require (fun h => (hReady h).2.1) fun keys _ =>
          .require (fun h => (hReady h).2.2) fun reKey _ =>
          .decode fun ct => .engine fun switched => .engine fun plain => .compute fun result =>
          .change id (.pure ?_))
        exact ⟨by decide, rfl, trivial, fun _ => trivial⟩
    | awaitProducer => exact .pure ⟨by decide, rfl⟩

end Consumer

end CipherRelay.Handoff
