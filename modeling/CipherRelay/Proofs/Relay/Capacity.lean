import CipherRelay.Proofs.Artifact.RoundTrip
import CipherRelay.Proofs.Artifact.Sizes
import CipherRelay.Proofs.Relay.Derivation
import CipherRelay.Proofs.Relay.Sequence
import CipherRelay.Proofs.Wire.Bodies
/-!
What fits a frame. A payload that has arrived in a frame is stored as it is, so the reply that
carries it fits a frame again, and all other replies are short, but for derived keys: their size
depends on the ring dimension, and in a large ring a derived key may fit no frame.
-/
namespace CipherRelay

/-- A tag takes three numbers at most. -/
theorem Wire.length_writeTag_le (tag : Tag) : (Wire.writeTag tag).length ≤ 12 := by
  have hKind : ∀ kind, (writeKind kind).length ≤ 8 := by
    intro kind
    cases kind <;> simp [writeKind, writeOperation, number, Bytes.length_littleEndian]
  cases tag with
  | request kind | send kind | ack kind | nack kind =>
      have := hKind kind
      simp [writeTag, number, Bytes.length_littleEndian]
      omega
  | _ => simp [writeTag, writeRole, number, Bytes.length_littleEndian]

/-- A payload fits a frame if it leaves room for the longest tag. -/
theorem Wire.arrives_of_le (session : SessionId) (tag : Tag) {payload : Bytes}
    (h : payload.length + 52 ≤ bodyLimit) : Arrives ⟨session, tag, payload⟩ := by
  have hTag := length_writeTag_le tag
  rw [arrives_iff, length_body]
  dsimp only
  omega

theorem Wire.arrives_bare (session : SessionId) (tag : Tag) : Arrives ⟨session, .bare tag⟩ :=
  arrives_of_le session tag (by decide)

namespace Scheme

/-- A context is always small enough to be sent. -/
theorem length_encode_context (cc : Context) : (Artifact.encode cc).length ≤ 80 := by
  have hDigits : ∀ x : UInt64, (toJson x).render.length ≤ 19 + 1 := by
    intro x
    have hBound : x.toNat < 10 ^ (19 + 1) := Nat.lt_trans x.toNat_lt (by decide)
    have hLength := Json.length_digits_le hBound
    simpa [toJson, Json.ofNat, Json.render, Json.lexemes, Json.Lexeme.render] using hLength
  have hFirst : (Json.escape "ring_dimension").length = 14 := by decide
  have hSecond : (Json.escape "plaintext_modulus").length = 17 := by decide
  refine (Json.length_render_fields "ring_dimension" "plaintext_modulus" _ _).trans_le ?_
  have hRing := hDigits cc.ringDimension
  have hModulus := hDigits cc.plaintextModulus
  omega

/-- The size of a key is bounded by the ring dimension. -/
theorem Context.IsValid.length_encode_switchKey {cc : Context} (h : cc.IsValid)
    (parts : cc.Parts) : (Artifact.encode (cc.switchKey parts)).length ≤
      22 * cc.ringDimension.toNat + 22 := by
  have hVector : ∀ v : cc.Slots,
      (toJson (cc.residues v)).render.length ≤ 11 * cc.ringDimension.toNat + 2 := by
    intro v
    rw [← length_residues v]
    refine length_render_residues_le fun x hMem => ?_
    obtain ⟨i, rfl⟩ := List.mem_ofFn.mp hMem
    rw [h.toNat_residue]
    exact Nat.lt_trans (h.val_lt _) h.modulus_lt
  have hAlpha := hVector parts.1
  have hBeta := hVector parts.2
  refine (Scheme.length_encode_switchKey _).trans_le ?_
  simp only [switchKey]
  omega

end Scheme

namespace Relay

/-- For a public key of zeros the derived key is the secret itself, whatever is drawn. -/
theorem derive_zeros {ρ : Type} [RandomSource ρ] {cc : Scheme.Context} (h : cc.IsValid)
    {x : UInt64} (hx : x < cc.plaintextModulus) (source : ρ) :
    ∃ after, Handler.derive cc
      (Artifact.encode (⟨List.replicate cc.ringDimension.toNat x⟩ : Scheme.PrivateKey))
      (Artifact.encode (⟨List.replicate cc.ringDimension.toNat 0,
        List.replicate cc.ringDimension.toNat 0⟩ : Scheme.PublicKey)) source =
      .ok ⟨List.replicate cc.ringDimension.toNat x, List.replicate cc.ringDimension.toNat 0⟩
        after := by
  obtain ⟨r, after, hKey⟩ := h.reKeyGen_eq_ok
    (fun _ => (x.toNat : ZMod cc.plaintextModulus.toNat)) (0, 0) source
  refine ⟨after, ?_⟩
  rw [Handler.derive, Artifact.decode_encode, Draw.lift_engine, pure_bind, Artifact.decode_encode,
    Draw.lift_engine, pure_bind, h.replicate_eq_residues hx, Scheme.Context.replicate_zero]
  simpa [Scheme.Context.privateKey, Scheme.Context.publicKey, Scheme.Context.switchKey,
    Scheme.Context.reKeyParts] using hKey

/-- What clients can bring a relay to: its mailbox runs, and every payload in it has arrived in a
frame. -/
structure Healthy (relay : Relay) : Prop where
  isGenerated : relay.context.IsGenerated
  stored : ∃ store, relay.server = .running store ∧ ∀ session kind payload,
    store.get? session kind = some payload → Wire.Arrives ⟨session, .send kind payload⟩

variable {ρ : Type} [RandomSource ρ] {relay : Relay}

theorem healthy_start {cc : Scheme.Context} (h : cc.IsGenerated) :
    (⟨cc, .start⟩ : Relay).Healthy :=
  ⟨h, .empty, rfl, fun _ _ _ hSome => by cases hSome⟩

/-- What has arrived in a frame can be stored and leaves a relay healthy. -/
theorem Healthy.dispatch (h : relay.Healthy) (source : ρ) {envelope : Envelope}
    (hArrives : Wire.Arrives envelope) :
    (relay.dispatch source envelope.session envelope.message).relay.Healthy := by
  obtain ⟨hContext, store, hServer, hStored⟩ := h
  obtain ⟨after, hRelay, hSlots⟩ := dispatch_slots hServer source envelope.session envelope.message
  rw [hRelay]
  refine ⟨hContext, after, rfl, fun session kind payload hSome => ?_⟩
  rw [hSlots] at hSome
  split at hSome
  case isFalse => exact hStored session kind payload hSome
  case isTrue hSession =>
    subst hSession
    unfold Message.update at hSome
    split at hSome
    case isTrue hDeposit =>
      obtain ⟨hTag, -⟩ := Tag.deposit?_eq_some.mp hDeposit
      rw [← Option.some.inj hSome, Message.send, ← hTag]
      exact hArrives
    case isFalse =>
      split at hSome
      · cases hSome
      · exact hStored _ kind payload hSome

/-- Whatever has arrived in frames leaves a relay healthy. -/
theorem Healthy.after (h : relay.Healthy) {calls : List (Call ρ)}
    (hCalls : ∀ call ∈ calls, Wire.Arrives call.envelope) : (relay.after calls).Healthy := by
  induction calls generalizing relay with
  | nil => exact h
  | cons call rest ih =>
      obtain ⟨hCall, hRest⟩ := List.forall_mem_cons.mp hCalls
      exact ih (h.dispatch call.source hCall) hRest

end Relay

end CipherRelay
