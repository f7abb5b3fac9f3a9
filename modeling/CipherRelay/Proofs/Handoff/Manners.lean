import CipherRelay.Proofs.Handoff.Conduct
import CipherRelay.Proofs.Party.Manners
/-!
The manners of a producer and a consumer. A consumer that fails has changed nothing. So has a
producer, but for one case: it takes its vector out of its data before it encrypts it, and where the
vector is too long for the slots, it does not put it back.
-/
namespace CipherRelay.Handoff

open Exchange Party Scheme

variable {ρ : Type} [RandomSource ρ]

namespace Producer

/-- Whether a producer has a context and a public key that passes the check. -/
def Keyed (producer : Producer) : Prop :=
  ∃ cc keys, producer.context = some cc ∧ producer.keys = some keys ∧
    cc.checkPublic keys.publicKey = .ok ()

/-- Whether a producer has lost its vector, which has no slot for each of its values. -/
def Loses (s : ProducerState) (producer : Producer) (error : PartyError) (after : Producer) :
    Prop :=
  s = .genKeys ∧ ∃ cc vector, producer.context = some cc ∧ producer.vector = some vector ∧
    cc.ringDimension.toNat < vector.length ∧
    error = .engine (.dimensionMismatch cc.ringDimension vector.length.toUInt64) ∧
    after = { producer with vector := none }

def manner : Manner ProducerState Producer where
  context := Producer.context
  sound s producer := s = .genKeys → producer.Keyed
  does _ message producer next after :=
    next.Enters (fun s => s = .genKeys → after.Keyed) ∧
      Receives Producer.context message producer after
  fails s _ producer error after := after = producer ∨ producer.Loses s error after

variable {concerns : Context → Prop} {E : PartyError → Producer → Prop} {producer : Producer}

/-- The vector that is taken has been there, or it has been drawn to fit. -/
theorem takeVector_ends {cc : Context} (hConcerns : concerns cc) (hRoom : cc.HasRoom)
    {Q : List Int64 → Producer → Prop}
    (h : ∀ vector, producer.vector = some vector ∨ vector.length = cc.ringDimension.toNat →
      Q vector { producer with vector := none }) :
    Action.Ends concerns E producer (takeVector cc : Action Producer ρ (List Int64)) Q := by
  refine .data (.change ?_)
  cases hVector : producer.vector with
  | some vector => exact .pure (h vector (.inl hVector))
  | none =>
      refine .draw (Context.vector_answers (E := fun _ => False) hRoom (by simp [packingBound]))
        hConcerns (fun _ => False.elim) fun drawn hDrawn => .pure (h _ (.inr ?_))
      rw [List.length_map, hDrawn.1]

omit [RandomSource ρ] in
/-- The comparison changes nothing before it has come to its end. -/
theorem verify_ends {returned : List Int64}
    (hConcerns : ∀ cc, producer.context = some cc → concerns cc)
    (hError : ∀ error, E error producer) {Q : Bool → Producer → Prop}
    (h : ∀ same passed, Q same { producer with passed }) :
    Action.Ends concerns E producer (verify returned : Action Producer ρ Bool) Q := by
  refine .data (.require (fun _ => hError _) fun cc hContext =>
    .require (fun _ => hError _) fun keys _ => .require (fun _ => hError _) fun ct _ =>
    .require (fun _ => hError _) fun vector _ => ?_)
  have hcc := hConcerns cc hContext
  refine .engine (Context.decrypt_guards _ _) hcc (fun _ _ _ => hError _) fun plain _ hPlain =>
    .compute (computes_wrap plain) hcc fun decrypted _ =>
    .compute (computes_wrap returned) hcc fun returned _ =>
    .compute (Context.computes_reserve (hPlain.1 _ List.mem_cons_self).1.1) hcc fun _ _ => ?_
  dsimp only
  split
  · exact .pure (h _ _)
  · exact .change (.pure (h _ _))

/-- All steps of a producer keep to its manner. -/
theorem governs : manner.Governs (table : StepTable ProducerState Producer ρ) where
  steps s step message producer hStep hTag hSound := by
    rw [get?_table] at hStep
    cases hStep
    have hError (error : PartyError) : manner.fails s message producer error producer := .inl rfl
    cases s with
    | getMessage => exact .pure ⟨by rintro ⟨⟩, .inl rfl⟩
    | requestCC =>
        refine .decode (fun _ => hError) fun cc hDecode => ?_
        have hOffers : Offers message cc := ⟨hTag, hDecode⟩
        refine .keyGen (.inr hOffers) fun keys hCheck _ => .change (.pure ⟨fun _ => ?_, ?_⟩)
        · exact ⟨cc, keys, rfl, rfl, hCheck⟩
        · exact .inr ⟨cc, hOffers, rfl⟩
    | genKeys =>
        obtain ⟨cc, keys, hContext, hKeys, hCheck⟩ := hSound rfl
        have hRoom : cc.HasRoom := (Context.checkPublic_iff.mp hCheck).1.hasRoom
        refine .data (.require (fun _ => hError _) fun cc' hContext' =>
          .require (fun _ => hError _) fun keys' hKeys' => ?_)
        cases hContext.symm.trans hContext'
        cases hKeys.symm.trans hKeys'
        split
        · exact .bind (.fail (hError _))
        refine .bind (takeVector_ends (.inl hContext) hRoom fun vector hVector => ?_)
        refine .draw (Context.encrypt_answers hCheck vector) (.inl hContext) ?_ fun ct _ =>
          .change (.pure ⟨by rintro ⟨⟩, .inl rfl⟩)
        rintro error ⟨hMany, rfl⟩
        have hOwn := hVector.resolve_right (by omega)
        exact .inr ⟨rfl, cc, vector, hContext, hOwn, hMany, rfl, rfl⟩
    | genCT => exact .pure ⟨by rintro ⟨⟩, .inl rfl⟩
    | requestVecInt =>
        refine .decode (fun _ => hError) fun returned _ => .bind ?_
        exact verify_ends (fun _ => .inl) hError fun same passed => .pure ⟨trivial, .inl rfl⟩
  onward _ _ _ _ _ _ hDoes := hDoes.1
  brings _ _ _ _ _ hDoes := hDoes.2
  back s message producer error after hSound hFails := by
    rcases hFails with rfl | ⟨-, cc, vector, -, -, -, -, rfl⟩
    · exact ⟨hSound, rfl⟩
    · exact ⟨hSound, rfl⟩

end Producer

namespace Consumer

def manner : Manner ConsumerState Consumer where
  context := Consumer.context
  sound _ _ := True
  does _ message consumer _ after := Receives Consumer.context message consumer after
  fails _ _ consumer _ after := after = consumer

/-- All steps of a consumer keep to its own. -/
theorem governs : manner.Governs (table : StepTable ConsumerState Consumer ρ) where
  steps s step message consumer hStep hTag _ := by
    rw [get?_table] at hStep
    cases hStep
    cases s with
    | getMessage | sendPublicKey | sendVecInt | awaitProducer => exact .pure (.inl rfl)
    | requestCC =>
        refine .decode (fun _ _ => rfl) fun cc hDecode => ?_
        have hOffers : Offers message cc := ⟨hTag, hDecode⟩
        exact .keyGen (.inr hOffers) fun keys _ _ => .change (.pure (.inr ⟨cc, hOffers, rfl⟩))
    | requestReEncryptionKey =>
        exact .decode (fun _ _ => rfl) fun reKey _ => .change (.pure (.inl rfl))
    | requestCT =>
        refine .data (.require (fun _ => rfl) fun cc hContext => .require (fun _ => rfl)
          fun keys _ => .require (fun _ => rfl) fun reKey _ => .decode (fun _ _ => rfl)
          fun ct _ => ?_)
        refine .engine (Context.reEncrypt_guards _ _) (.inl hContext) (fun _ _ _ => rfl)
          fun switched _ _ => .engine (Context.decrypt_guards _ _) (.inl hContext)
          (fun _ _ _ => rfl) fun plain _ _ => .compute (computes_wrap plain) (.inl hContext)
          fun result _ => .change (.pure (.inl rfl))
  onward _ _ _ _ _ _ _ := trivial
  brings _ _ _ _ _ hDoes := hDoes
  back _ _ _ _ _ _ hFails := ⟨trivial, congrArg Consumer.context hFails⟩

end Consumer

end CipherRelay.Handoff
