import CipherRelay.Party.Error
import CipherRelay.Proofs.Artifact.Messages
import CipherRelay.Relay.Error
/-!
Errors survive their payloads too, with whatever texts they carry. With this every type that has a
payload is lawful: what is encoded can be decoded, and gives the same value again.
-/
namespace CipherRelay.Artifact

open Mailbox Party Relay Scheme

instance : Lawful ContextParams :=
  .ofFields (by decide) (fun _ => rfl) (fun _ => rfl) (fun _ => rfl)

instance : Lawful EngineError where
  isWritten_toJson error := by
    cases error with
    | invalidRingDimension data | invalidPlaintextModulus data | missingSumKey data
    | serialization data => exact Json.isWritten_variant _ (Lawful.isWritten_toJson data)
    | dimensionMismatch first second | residueOutOfRange first second =>
        exact Json.isWritten_variant _ (isWritten_pair _ _ first second)
  ofJson?_toJson error := by
    change EngineError.read? (EngineError.write error) = some error
    cases error with
    | invalidRingDimension data | invalidPlaintextModulus data | missingSumKey data
    | serialization data =>
        simp [EngineError.read?, EngineError.write, EngineError.name, Lawful.ofJson?_toJson]
    | dimensionMismatch first second | residueOutOfRange first second =>
        simp [EngineError.read?, EngineError.write, EngineError.name, Json.fields?_pair,
          Lawful.ofJson?_toJson]

instance : Lawful StoreError where
  isWritten_toJson error := by
    cases error with
    | notStorable kind | artifactNotReady kind =>
        exact Json.isWritten_variant _ (Lawful.isWritten_toJson kind)
    | storeShutdown | unexpectedResponse => exact Json.isWritten_ofText _
  ofJson?_toJson error := by
    have hNames : ([StoreError.storeShutdown, .unexpectedResponse].map StoreError.name).Nodup := by
      decide
    change StoreError.read? (StoreError.write error) = some error
    cases error with
    | notStorable kind | artifactNotReady kind =>
        simp [StoreError.read?, StoreError.write, StoreError.name, Lawful.ofJson?_toJson]
    | storeShutdown | unexpectedResponse =>
        simp [StoreError.read?, StoreError.write, named?_eq_some hNames]

instance : Lawful PartyError where
  isWritten_toJson error := by
    cases error with
    | connection data | preconditionViolation data | unknownState data | missingLocalState data
    | unexpectedTag data | engine data =>
        exact Json.isWritten_variant _ (Lawful.isWritten_toJson data)
    | timeout state attempts => exact Json.isWritten_variant _ (isWritten_pair _ _ state attempts)
    | connectionClosed | cancelled => exact Json.isWritten_ofText _
  ofJson?_toJson error := by
    have hNames : ([PartyError.connectionClosed, .cancelled].map PartyError.variantName).Nodup := by
      decide
    change PartyError.read? (PartyError.write error) = some error
    cases error with
    | connection data | preconditionViolation data | unknownState data | missingLocalState data
    | unexpectedTag data | engine data =>
        simp [PartyError.read?, PartyError.write, PartyError.variantName, Lawful.ofJson?_toJson]
    | timeout state attempts =>
        simp [PartyError.read?, PartyError.write, PartyError.variantName, Json.fields?_pair,
          Lawful.ofJson?_toJson]
    | connectionClosed | cancelled =>
        simp [PartyError.read?, PartyError.write, named?_eq_some hNames]

instance : Lawful RelayError where
  isWritten_toJson error := by
    cases error with
    | failToConnect data | failToListen data | failToDecode data | failToEncode data | io data
    | store data | engine data =>
        exact Json.isWritten_variant _ (Lawful.isWritten_toJson data)
    | invalidSetting name reason => exact Json.isWritten_variant _ (isWritten_pair _ _ name reason)
    | connectionClosed => exact Json.isWritten_ofText _
  ofJson?_toJson error := by
    have hNames : ([RelayError.connectionClosed].map RelayError.variantName).Nodup := by decide
    change RelayError.read? (RelayError.write error) = some error
    cases error with
    | failToConnect data | failToListen data | failToDecode data | failToEncode data | io data
    | store data | engine data =>
        simp [RelayError.read?, RelayError.write, RelayError.variantName, Lawful.ofJson?_toJson]
    | invalidSetting name reason =>
        simp [RelayError.read?, RelayError.write, RelayError.variantName, Json.fields?_pair,
          Lawful.ofJson?_toJson]
    | connectionClosed => simp [RelayError.read?, RelayError.write, named?_eq_some hNames]

/-- Whether every value of a type is decoded from what it is encoded as. -/
def Survives (α : Type) [Artifact α] : Prop :=
  ∀ a : α, Scheme.decode (encode a) = .ok a

theorem Lawful.survives (α : Type) [Artifact α] [Lawful α] : Survives α :=
  decode_encode

/-- Every artifact survives its payload: the objects of the scheme, plaintexts, parameters, names,
sessions, messages, envelopes and errors. -/
theorem every_artifact_survives :
    (Survives Context ∧ Survives PublicKey ∧ Survives PrivateKey ∧ Survives SwitchKey ∧
      Survives RotationKeys ∧ Survives Ciphertext ∧ Survives Share) ∧
    (Survives (List Int64) ∧ Survives ContextParams) ∧
    (Survives Tag ∧ Survives ArtifactKind ∧ Survives Role ∧ Survives Operation) ∧
    (Survives SessionId ∧ Survives Message ∧ Survives Envelope) ∧
    (Survives EngineError ∧ Survives StoreError ∧ Survives PartyError ∧ Survives RelayError) := by
  refine ⟨⟨?_, ?_, ?_, ?_, ?_, ?_, ?_⟩, ⟨?_, ?_⟩, ⟨?_, ?_, ?_, ?_⟩, ⟨?_, ?_, ?_⟩, ?_, ?_, ?_, ?_⟩
  all_goals exact Lawful.survives _

end CipherRelay.Artifact
