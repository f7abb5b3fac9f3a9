import CipherRelay.Proofs.Relay.Dispatch
import CipherRelay.Proofs.Scheme.Operations
/-!
Derived keys. Clients may have stored anything in the two slots that a key is derived from. In a
generated context the derivation has a result all the same, or an error that names what is wrong, so
a request for the key is always answered.
-/
namespace CipherRelay.Relay

open Scheme

variable {ρ : Type} [RandomSource ρ] {cc : Context}

/-- A derived key comes from the payloads of a private and a public key that are well-formed. -/
theorem derive_cases (h : cc.IsGenerated) (first second : Bytes) (source : ρ) :
    (∃ s parts r after, cc.HasRoom ∧ Artifact.decode? first = some (cc.privateKey s) ∧
      Artifact.decode? second = some (cc.publicKey parts) ∧
      Handler.derive cc first second source =
        .ok (cc.switchKey (Context.reKeyParts s parts r)) after) ∨
      ∃ error, Handler.derive cc first second source = .error (.error error) source := by
  unfold Handler.derive Scheme.decode
  cases hFirst : (Artifact.decode? first : Option PrivateKey) with
  | none => exact .inr ⟨_, Draw.bind_eq_error (Draw.lift_engine_error _ source) _⟩
  | some key =>
      rw [Draw.lift_engine, pure_bind]
      cases hSecond : (Artifact.decode? second : Option PublicKey) with
      | none => exact .inr ⟨_, Draw.bind_eq_error (Draw.lift_engine_error _ source) _⟩
      | some target =>
          rw [Draw.lift_engine, pure_bind]
          rcases h.reKeyGen_cases key target source with
            ⟨s, parts, r, after, hRoom, rfl, rfl, hKey⟩ | hError
          · exact .inl ⟨s, parts, r, after, hRoom, rfl, rfl, hKey⟩
          · exact .inr hError

/-- A key that cannot be derived is refused. -/
theorem derivation_eq_nack {first second : Bytes} {source after : ρ} {error : EngineError}
    (h : Handler.derive cc first second source = .error (.error error) after) :
    Handler.derivation cc [some first, some second] source =
      .ok (some (.bare (.nack .reEncryptionKey))) after := by
  unfold Handler.derivation
  dsimp only
  rw [h]

/-- Whatever the two slots hold, the derived key is sent or said not to be there. -/
theorem derivation_cases (h : cc.IsGenerated) (first second : Option Bytes) (source : ρ) :
    ∃ reply after, Handler.derivation cc [first, second] source = .ok (some reply) after ∧
      ((∃ parts, reply = .send .reEncryptionKey (Artifact.encode (cc.switchKey parts))) ∨
        reply = .bare (.nack .reEncryptionKey)) := by
  cases first with
  | none => exact ⟨.bare (.nack .reEncryptionKey), source, rfl, .inr rfl⟩
  | some first =>
      cases second with
      | none => exact ⟨.bare (.nack .reEncryptionKey), source, rfl, .inr rfl⟩
      | some second =>
          rcases derive_cases h first second source with
            ⟨s, parts, r, after, -, -, -, hDerive⟩ | ⟨error, hDerive⟩
          · exact ⟨_, after, derivation_eq_ok hDerive, .inl ⟨_, rfl⟩⟩
          · exact ⟨_, source, derivation_eq_nack hDerive, .inr rfl⟩

/-- A request for the key of a session is always answered, and changes nothing. -/
theorem dispatch_reEncryptionKey {relay : Relay} (h : relay.context.IsGenerated)
    {store : Mailbox.Store} (hServer : relay.server = .running store) (source : ρ)
    (session : SessionId) :
    ∃ reply after, relay.dispatch source session (.request .reEncryptionKey) =
        ⟨.handled (some reply), relay, after⟩ ∧
      ((∃ parts, reply = .send .reEncryptionKey
          (Artifact.encode (relay.context.switchKey parts))) ∨
        reply = .bare (.nack .reEncryptionKey)) := by
  obtain ⟨reply, after, hDerive, hTag⟩ := derivation_cases h
    (store.get? session .privateKey) (store.get? session .publicKey) source
  exact ⟨reply, after, dispatch_derive hServer hDerive, hTag⟩

end CipherRelay.Relay
