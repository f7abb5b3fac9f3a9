import CipherRelay.Artifact.Message
import CipherRelay.Proofs.Artifact.RoundTrip
/-!
Names and messages survive their payloads. An alternative is known by its name, and names that
differ are told apart, so a tag is read back with all that it is about, and with it every message
and every envelope.
-/
namespace CipherRelay

namespace Json

/-- An alternative with data is told by its name. -/
@[simp]
theorem variant?_variant (name : String) (data : Json) :
    (variant name data).variant? = some (name, some data) := by
  simp [variant, record, variant?, unescape?_escape]

@[simp]
theorem variant?_bareVariant (name : String) :
    (bareVariant name).variant? = some (name, none) := by
  simp [bareVariant, ofText, variant?, unescape?_escape]

@[simp]
theorem bareVariant?_bareVariant (name : String) : (bareVariant name).bareVariant? = some name := by
  simp only [bareVariant?, variant?_bareVariant]

/-- An alternative is written if its data are. -/
theorem isWritten_variant (name : String) {data : Json} (h : data.IsWritten) :
    (variant name data).IsWritten :=
  isWritten_record (by simpa using h)

/-- The two fields of a record are read by their names. -/
theorem fields?_pair {first second : String} (h : first ≠ second) (left right : Json) :
    (record [(first, left), (second, right)]).fields? [first, second] = some [left, right] :=
  fields?_record [(first, left), (second, right)] (by simp [h])

end Json

/-- Names that differ are told apart. -/
theorem named?_eq_some {α : Type} {name : α → String} {all : List α} (h : (all.map name).Nodup)
    {a : α} (hMem : a ∈ all) : named? name all (name a) = some a := by
  induction all with
  | nil => simp at hMem
  | cons first rest ih =>
      rw [List.map_cons, List.nodup_cons] at h
      obtain ⟨hFresh, hRest⟩ := h
      rcases List.mem_cons.mp hMem with rfl | hLater
      · simp [named?]
      · have hOther : name first ≠ name a := fun hName =>
          hFresh (hName ▸ List.mem_map_of_mem hLater)
        simpa [named?, hOther] using ih hRest hLater

namespace Artifact

variable {α β : Type} [Artifact α] [Lawful α] [Artifact β] [Lawful β]

/-- A record of two fields is written if its fields are. -/
theorem isWritten_pair (first second : String) (a : α) (b : β) :
    (Json.record [(first, toJson a), (second, toJson b)]).IsWritten :=
  Json.isWritten_record (by simp [Lawful.isWritten_toJson])

instance : Lawful UInt8 where
  isWritten_toJson n := Json.isWritten_ofNat n.toNat
  ofJson?_toJson n := by
    change ((Json.ofNat n.toNat).below? UInt8.size).map _ = _
    rw [Json.below?_ofNat n.toNat_lt]
    simp

instance : Lawful UInt32 where
  isWritten_toJson n := Json.isWritten_ofNat n.toNat
  ofJson?_toJson n := by
    change ((Json.ofNat n.toNat).below? UInt32.size).map _ = _
    rw [Json.below?_ofNat n.toNat_lt]
    simp

instance : Lawful String where
  isWritten_toJson := Json.isWritten_ofText
  ofJson?_toJson := Json.text?_ofText

/-- A type of names is read back if its names differ. -/
theorem Lawful.ofNames {γ : Type} [Artifact γ] {name : γ → String} {all : List γ}
    (hNames : (all.map name).Nodup) (hAll : ∀ c, c ∈ all)
    (hWrite : ∀ c, toJson c = .bareVariant (name c))
    (hRead : ∀ value, ofJson? value = value.bareVariant?.bind (named? name all)) : Lawful γ where
  isWritten_toJson c := by
    rw [hWrite]
    exact Json.isWritten_ofText (name c)
  ofJson?_toJson c := by
    rw [hWrite, hRead, Json.bareVariant?_bareVariant, Option.bind_some,
      named?_eq_some hNames (hAll c)]

instance : Lawful Role :=
  .ofNames (by decide) (by rintro ⟨⟩ <;> decide) (fun _ => rfl) (fun _ => rfl)

instance : Lawful Operation :=
  .ofNames (by decide) (by rintro ⟨⟩ <;> decide) (fun _ => rfl) (fun _ => rfl)

/-- A kind without an operation is read back from its name. -/
theorem read?_of_mem_simple {kind : ArtifactKind} (h : kind ∈ ArtifactKind.simple) :
    ArtifactKind.read? (.bareVariant kind.name) = some kind := by
  have hNames : (ArtifactKind.simple.map ArtifactKind.name).Nodup := by decide
  simp only [ArtifactKind.read?, Json.variant?_bareVariant, Json.bareVariant?_bareVariant,
    Option.bind_some, named?_eq_some hNames h]
  split
  case h_3 => rfl
  all_goals simp_all

instance : Lawful ArtifactKind where
  isWritten_toJson kind := by
    cases kind with
    | partialLead operation | partialMain operation =>
        exact Json.isWritten_variant _ (Lawful.isWritten_toJson operation)
    | _ => exact Json.isWritten_ofText _
  ofJson?_toJson kind := by
    cases kind with
    | partialLead operation | partialMain operation =>
        change ArtifactKind.read? (.variant _ (toJson operation)) = _
        simp [ArtifactKind.read?, ArtifactKind.name, Lawful.ofJson?_toJson]
    | _ => exact read?_of_mem_simple (by decide)

instance : Lawful Tag where
  isWritten_toJson tag := by
    cases tag with
    | serverAccept | deny => exact Json.isWritten_ofText _
    | request kind | send kind | ack kind | nack kind =>
        exact Json.isWritten_variant _ (Lawful.isWritten_toJson kind)
    | disconnect role => exact Json.isWritten_variant _ (Lawful.isWritten_toJson role)
  ofJson?_toJson tag := by
    have hNames : ([Tag.serverAccept, .deny].map Tag.name).Nodup := by decide
    change Tag.read? (Tag.write tag) = some tag
    cases tag with
    | serverAccept | deny =>
        simp [Tag.read?, Tag.write, named?_eq_some hNames]
    | request kind | send kind | ack kind | nack kind =>
        simp [Tag.read?, Tag.write, Tag.name, Lawful.ofJson?_toJson]
    | disconnect role =>
        simp [Tag.read?, Tag.write, Tag.name, Lawful.ofJson?_toJson]

instance : Lawful SessionId where
  isWritten_toJson session := Lawful.isWritten_toJson session.bytes
  ofJson?_toJson session := by
    change (ofJson? (toJson session.bytes) : Option Bytes).bind SessionId.ofBytes? = some session
    rw [Lawful.ofJson?_toJson, Option.bind_some, SessionId.ofBytes?_bytes]

instance : Lawful Message :=
  .ofFields (by decide) (fun _ => rfl) (fun _ => rfl) (fun _ => rfl)

instance : Lawful Envelope :=
  .ofFields (by decide) (fun _ => rfl) (fun _ => rfl) (fun _ => rfl)

end Artifact

end CipherRelay
