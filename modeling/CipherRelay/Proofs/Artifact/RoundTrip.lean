import CipherRelay.Proofs.Json.Numbers
import CipherRelay.Proofs.Json.Texts
import CipherRelay.Proofs.Scheme.RotationKeys
/-!
Artifacts survive their payloads. For every type that the parties hand to each other, a value is
read back from its JSON form and its form from the bytes, so nobody can receive an artifact that
differs from the one that was sent.
-/
namespace CipherRelay

open Scheme

namespace Artifact

/-- A type whose values are read back from what is written for them. -/
class Lawful (α : Type) [Artifact α] : Prop where
  isWritten_toJson (a : α) : (toJson a).IsWritten
  ofJson?_toJson (a : α) : ofJson? (toJson a) = some a

variable {α : Type} [Artifact α] [Lawful α]

/-- An artifact is read back from its payload. -/
theorem decode?_encode (a : α) : decode? (encode a) = some a := by
  simp [decode?, encode, Json.read?_render (Lawful.isWritten_toJson a), Lawful.ofJson?_toJson]

theorem decode_encode (a : α) : Scheme.decode (encode a) = .ok a := by
  simp only [Scheme.decode, decode?_encode]

instance : Lawful UInt64 where
  isWritten_toJson n := Json.isWritten_ofNat n.toNat
  ofJson?_toJson n := by
    change ((Json.ofNat n.toNat).below? UInt64.size).map _ = _
    rw [Json.below?_ofNat n.toNat_lt]
    simp

instance : Lawful Int64 where
  isWritten_toJson n := Json.isWritten_ofInt n.toInt
  ofJson?_toJson n := by
    change ((Json.ofInt n.toInt).between? Int64.minValue.toInt Int64.maxValue.toInt).map _ = _
    rw [Json.between?_ofInt (Int64.minValue_le_toInt n) (Int64.toInt_le n), Option.map_some,
      Int64.ofInt_toInt]

instance : Lawful (List α) where
  isWritten_toJson items := by
    apply Json.isWritten_array.mpr
    intro item hMem
    obtain ⟨a, -, rfl⟩ := List.mem_map.mp hMem
    exact Lawful.isWritten_toJson a
  ofJson?_toJson items := Json.mapM_map_eq_some fun item _ => Lawful.ofJson?_toJson item

/-- A record of one field is read back if the field is. -/
theorem Lawful.ofField {β : Type} [Artifact β] {name : String} {field : β → α} {make : α → β}
    (hMake : ∀ b, make (field b) = b)
    (hWrite : ∀ b, toJson b = .record [(name, toJson (field b))])
    (hRead : ∀ value, ofJson? value = do
      let [a] ← Json.fields? [name] value | none
      return make (← ofJson? a)) : Lawful β where
  isWritten_toJson b := by
    rw [hWrite]
    exact Json.isWritten_record (by simp [Lawful.isWritten_toJson])
  ofJson?_toJson b := by
    have hFields := Json.fields?_record [(name, toJson (field b))] (by simp)
    simp only [List.map_cons, List.map_nil] at hFields
    simp [hRead, hWrite, hFields, Lawful.ofJson?_toJson, hMake]

theorem Lawful.ofFields {β γ : Type} [Artifact β] [Lawful β] [Artifact γ] {first second : String}
    (hNames : first ≠ second) {left : γ → α} {right : γ → β} {make : α → β → γ}
    (hMake : ∀ c, make (left c) (right c) = c)
    (hWrite : ∀ c, toJson c = .record [(first, toJson (left c)), (second, toJson (right c))])
    (hRead : ∀ value, ofJson? value = do
      let [a, b] ← Json.fields? [first, second] value | none
      return make (← ofJson? a) (← ofJson? b)) : Lawful γ where
  isWritten_toJson c := by
    rw [hWrite]
    exact Json.isWritten_record (by simp [Lawful.isWritten_toJson])
  ofJson?_toJson c := by
    have hFields := Json.fields?_record
      [(first, toJson (left c)), (second, toJson (right c))] (by simp [hNames])
    simp only [List.map_cons, List.map_nil] at hFields
    simp [hRead, hWrite, hFields, Lawful.ofJson?_toJson, hMake]

instance : Lawful Context :=
  .ofFields (by decide) (fun _ => rfl) (fun _ => rfl) (fun _ => rfl)

instance : Lawful PublicKey :=
  .ofFields (by decide) (fun _ => rfl) (fun _ => rfl) (fun _ => rfl)

instance : Lawful PrivateKey :=
  .ofField (fun _ => rfl) (fun _ => rfl) (fun _ => rfl)

instance : Lawful SwitchKey :=
  .ofFields (by decide) (fun _ => rfl) (fun _ => rfl) (fun _ => rfl)

instance : Lawful Ciphertext :=
  .ofFields (by decide) (fun _ => rfl) (fun _ => rfl) (fun _ => rfl)

instance : Lawful Share :=
  .ofField (fun _ => rfl) (fun _ => rfl) (fun _ => rfl)

/-- The name of an entry is the number of its rotation. -/
theorem rotationEntry?_digits (rotation : UInt64) (key : SwitchKey) :
    rotationEntry? (Json.digits rotation.toNat) (toJson key) = some (rotation, key) := by
  have hRotation := Json.below?_ofNat rotation.toNat_lt
  simp only [Json.ofNat] at hRotation
  simp [hRotation, rotationEntry?, Lawful.ofJson?_toJson]

instance : Lawful RotationKeys where
  isWritten_toJson keys := by
    refine Json.isWritten_record ?_
    simp only [List.mem_singleton, forall_eq]
    apply Json.isWritten_object.mpr
    intro member hMem
    obtain ⟨⟨rotation, key⟩, -, rfl⟩ := List.mem_map.mp hMem
    exact ⟨Json.quotable_digits rotation.toNat, Lawful.isWritten_toJson key⟩
  ofJson?_toJson keys := by
    have hFields := Json.fields?_record [("keys",
      .object (keys.entries.map fun (rotation, key) =>
        (Json.digits rotation.toNat, toJson key)))] (by simp)
    have hEntries : (keys.entries.map fun (rotation, key) =>
        (Json.digits rotation.toNat, toJson key)).mapM
          (fun (key, value) => rotationEntry? key value) = some keys.entries :=
      Json.mapM_map_eq_some fun entry _ => rotationEntry?_digits entry.1 entry.2
    change (do
      let [.object members] ← Json.fields? ["keys"] (.record [("keys", .object _)]) | none
      let entries ← members.mapM fun (key, value) => rotationEntry? key value
      return RotationKeys.ofList entries) = _
    simp only [List.map_cons, List.map_nil] at hFields
    rw [hFields]
    simp [hEntries, RotationKeys.ofList_entries]

end Artifact

end CipherRelay
