import CipherRelay.Wire.Frame
import CipherRelay.Proofs.Bytes
/-!
Bodies and their envelopes. Each reader answers a value where the bytes written for that value stand
in front, and nowhere else. So a body holds an envelope just where the envelope's own body is its
front, and what arrives in a frame would fit a frame again.
-/
namespace CipherRelay.Wire

open Bytes (littleEndian ofLittleEndian)

variable {α β : Type} {bytes rest : Bytes}

/-- What is read in two parts is split somewhere between them. -/
theorem bind_eq_some_iff {first : Reader α} {later : α → Reader β} {b : β} :
    (first >>= later) bytes = some (b, rest) ↔
      ∃ a middle, first bytes = some (a, middle) ∧ later a middle = some (b, rest) := by
  simp [bind, StateT.bind, Option.bind_eq_some_iff]

theorem pure_eq_some_iff {a b : α} :
    (pure a : Reader α) bytes = some (b, rest) ↔ a = b ∧ bytes = rest := by
  change some (a, bytes) = some (b, rest) ↔ _
  rw [Option.some.injEq, Prod.mk.injEq]

theorem failure_eq_none : (failure : Reader α) bytes = none := rfl

theorem take_eq_some_iff {count : Nat} {taken : Bytes} :
    take count bytes = some (taken, rest) ↔ taken.length = count ∧ bytes = taken ++ rest := by
  constructor
  · intro h
    unfold take at h
    split at h
    case isTrue hLength =>
      cases h
      exact ⟨List.length_take_of_le hLength, (List.take_append_drop count bytes).symm⟩
    case isFalse => cases h
  · rintro ⟨rfl, rfl⟩
    exact take_append taken rest

theorem takeNumber_eq_some_iff {count n : Nat} :
    takeNumber count bytes = some (n, rest) ↔
      n < 256 ^ count ∧ bytes = littleEndian count n ++ rest := by
  simp only [takeNumber, bind_eq_some_iff, take_eq_some_iff, pure_eq_some_iff]
  constructor
  · rintro ⟨taken, middle, ⟨rfl, rfl⟩, rfl, rfl⟩
    exact ⟨Bytes.ofLittleEndian_lt taken, by rw [Bytes.littleEndian_ofLittleEndian]⟩
  · rintro ⟨hLt, rfl⟩
    exact ⟨_, rest, ⟨Bytes.length_littleEndian count n, rfl⟩,
      by rw [Bytes.ofLittleEndian_littleEndian, Nat.mod_eq_of_lt hLt], rfl⟩

/-- In a list without repetitions a name has one number. -/
theorem getElem?_eq_some_iff [DecidableEq α] {names : List α} (hDistinct : names.Nodup) {n : Nat}
    {name : α} : names[n]? = some name ↔ name ∈ names ∧ n = names.idxOf name := by
  constructor
  · intro h
    obtain ⟨hLt, rfl⟩ := List.getElem?_eq_some_iff.mp h
    exact ⟨List.getElem_mem hLt, (hDistinct.idxOf_getElem n hLt).symm⟩
  · rintro ⟨hMem, rfl⟩
    have hLt := List.idxOf_lt_length_iff.mpr hMem
    rw [List.getElem?_eq_getElem hLt, List.getElem_idxOf hLt]

/-- A name is taken where its number stands. -/
theorem takeName_eq_some_iff [DecidableEq α] {names : List α} (hDistinct : names.Nodup)
    (hFew : names.length ≤ 256 ^ 4) {name : α} :
    takeName names bytes = some (name, rest) ↔
      name ∈ names ∧ bytes = number (names.idxOf name) ++ rest := by
  simp only [takeName, bind_eq_some_iff, takeNumber_eq_some_iff]
  constructor
  · rintro ⟨n, middle, ⟨-, rfl⟩, hName⟩
    cases hOther : names[n]? with
    | none => simp [hOther, failure_eq_none] at hName
    | some other =>
        simp only [hOther, pure_eq_some_iff] at hName
        obtain ⟨rfl, rfl⟩ := hName
        obtain ⟨hMem, rfl⟩ := (getElem?_eq_some_iff hDistinct).mp hOther
        exact ⟨hMem, rfl⟩
  · rintro ⟨hMem, rfl⟩
    have hLt := List.idxOf_lt_length_iff.mpr hMem
    refine ⟨names.idxOf name, rest, ⟨by omega, rfl⟩, ?_⟩
    simp only [(getElem?_eq_some_iff hDistinct).mpr ⟨hMem, rfl⟩]
    rfl

theorem takeRole_eq_some_iff {role : Role} :
    takeRole bytes = some (role, rest) ↔ bytes = writeRole role ++ rest := by
  rw [takeRole, takeName_eq_some_iff (by decide) (by decide), writeRole]
  exact and_iff_right (by cases role <;> decide)

theorem takeOperation_eq_some_iff {operation : Operation} :
    takeOperation bytes = some (operation, rest) ↔ bytes = writeOperation operation ++ rest := by
  rw [takeOperation, takeName_eq_some_iff (by decide) (by decide), writeOperation]
  exact and_iff_right (by cases operation <;> decide)

/-- The number of a kind without an operation is its place among these kinds. -/
theorem writeKind_of_mem {kind : ArtifactKind} (h : kind ∈ ArtifactKind.simple) :
    writeKind kind = number (ArtifactKind.simple.idxOf kind) := by
  cases kind with
  | partialLead operation | partialMain operation => simp [ArtifactKind.simple] at h
  | _ => rfl

theorem takeKind_eq_some_iff {kind : ArtifactKind} :
    takeKind bytes = some (kind, rest) ↔ bytes = writeKind kind ++ rest := by
  have hDistinct : ArtifactKind.simple.Nodup := by decide
  simp only [takeKind, bind_eq_some_iff, takeNumber_eq_some_iff]
  constructor
  · rintro ⟨n, middle, ⟨-, rfl⟩, hKind⟩
    obtain rfl | rfl | ⟨hLead, hMain⟩ : n = 17 ∨ n = 18 ∨ n ≠ 17 ∧ n ≠ 18 := by omega
    · simp only [bind_eq_some_iff, pure_eq_some_iff, takeOperation_eq_some_iff] at hKind
      obtain ⟨operation, _, rfl, rfl, rfl⟩ := hKind
      simp [writeKind, number]
    · simp only [bind_eq_some_iff, pure_eq_some_iff, takeOperation_eq_some_iff] at hKind
      obtain ⟨operation, _, rfl, rfl, rfl⟩ := hKind
      simp [writeKind, number]
    · simp only at hKind
      cases hOther : ArtifactKind.simple[n]? with
      | none => simp [hOther, failure_eq_none] at hKind
      | some other =>
          simp only [hOther, pure_eq_some_iff] at hKind
          obtain ⟨rfl, rfl⟩ := hKind
          obtain ⟨hMem, rfl⟩ := (getElem?_eq_some_iff hDistinct).mp hOther
          rw [writeKind_of_mem hMem, number]
  · rintro rfl
    cases kind with
    | partialLead operation =>
        refine ⟨17, writeOperation operation ++ rest, ⟨by decide, by simp [writeKind, number]⟩, ?_⟩
        exact bind_eq_some_iff.mpr ⟨operation, rest, takeOperation_eq_some_iff.mpr rfl, rfl⟩
    | partialMain operation =>
        refine ⟨18, writeOperation operation ++ rest, ⟨by decide, by simp [writeKind, number]⟩, ?_⟩
        exact bind_eq_some_iff.mpr ⟨operation, rest, takeOperation_eq_some_iff.mpr rfl, rfl⟩
    | _ => exact ⟨_, rest, ⟨by decide, rfl⟩, rfl⟩

theorem takeTag_eq_some_iff {tag : Tag} :
    takeTag bytes = some (tag, rest) ↔ bytes = writeTag tag ++ rest := by
  simp only [takeTag, bind_eq_some_iff, takeNumber_eq_some_iff]
  constructor
  · rintro ⟨n, middle, ⟨-, rfl⟩, hTag⟩
    obtain rfl | rfl | rfl | rfl | rfl | rfl | rfl | hMore : n = 0 ∨ n = 1 ∨ n = 2 ∨ n = 3 ∨
      n = 4 ∨ n = 5 ∨ n = 6 ∨ 7 ≤ n := by omega
    case inr.inr.inr.inr.inr.inr.inr =>
      obtain ⟨n, rfl⟩ := Nat.exists_eq_add_of_le' hMore
      cases hTag
    all_goals
      simp only [bind_eq_some_iff, pure_eq_some_iff, takeKind_eq_some_iff,
        takeRole_eq_some_iff] at hTag
    case inl | inr.inr.inr.inr.inr.inr.inl =>
      obtain ⟨rfl, rfl⟩ := hTag
      rfl
    all_goals
      obtain ⟨_, _, rfl, rfl, rfl⟩ := hTag
      simp [writeTag, number]
  · rintro rfl
    cases tag with
    | serverAccept | deny => exact ⟨_, rest, ⟨by decide, rfl⟩, rfl⟩
    | request kind | send kind | ack kind | nack kind =>
        refine ⟨_, writeKind kind ++ rest, ⟨?_, List.append_assoc _ _ _⟩, ?_⟩
        · decide
        · exact bind_eq_some_iff.mpr ⟨kind, rest, takeKind_eq_some_iff.mpr rfl, rfl⟩
    | disconnect role =>
        refine ⟨_, writeRole role ++ rest, ⟨?_, List.append_assoc _ _ _⟩, ?_⟩
        · decide
        · exact bind_eq_some_iff.mpr ⟨role, rest, takeRole_eq_some_iff.mpr rfl, rfl⟩

theorem takeSession_eq_some_iff {session : SessionId} :
    takeSession bytes = some (session, rest) ↔ bytes = session.bytes ++ rest := by
  simp only [takeSession, bind_eq_some_iff, take_eq_some_iff]
  constructor
  · rintro ⟨taken, middle, ⟨hLength, rfl⟩, hSession⟩
    simp only [SessionId.ofBytes?, hLength, dif_pos, pure_eq_some_iff] at hSession
    obtain ⟨rfl, rfl⟩ := hSession
    rfl
  · rintro rfl
    refine ⟨session.bytes, rest, ⟨session.length_bytes, rfl⟩, ?_⟩
    simp only [SessionId.ofBytes?_bytes]
    rfl

/-- An envelope is read exactly from its body, whatever stands behind that. -/
theorem takeEnvelope_eq_some_iff {envelope : Envelope} :
    takeEnvelope bytes = some (envelope, rest) ↔
      envelope.message.payload.length < 256 ^ 8 ∧ bytes = body envelope ++ rest := by
  simp only [takeEnvelope, bind_eq_some_iff, takeSession_eq_some_iff, takeTag_eq_some_iff,
    takeNumber_eq_some_iff, take_eq_some_iff, pure_eq_some_iff]
  constructor
  · rintro ⟨session, _, rfl, tag, _, rfl, _, _, ⟨hLt, rfl⟩, payload, _, ⟨rfl, rfl⟩, rfl, rfl⟩
    exact ⟨hLt, by simp [body]⟩
  · rintro ⟨hLt, rfl⟩
    exact ⟨envelope.session, _, by simp [body], envelope.message.tag, _, rfl, _, _, ⟨hLt, rfl⟩,
      envelope.message.payload, rest, ⟨rfl, rfl⟩, rfl, rfl⟩

/-- The session, the length of the payload, the tag and the payload make up a body. -/
theorem length_body (envelope : Envelope) : (body envelope).length =
    40 + (writeTag envelope.message.tag).length + envelope.message.payload.length := by
  simp [body, envelope.session.length_bytes, Bytes.length_littleEndian]
  omega

/-- A body holds an envelope just where the envelope's own body is its front. -/
theorem ofBody?_eq_some_iff {envelope : Envelope} :
    ofBody? bytes = some envelope ↔
      envelope.message.payload.length < 256 ^ 8 ∧ body envelope <+: bytes := by
  rw [ofBody?, Option.map_eq_some_iff]
  constructor
  · rintro ⟨⟨found, rest⟩, hTake, rfl⟩
    obtain ⟨hLt, rfl⟩ := takeEnvelope_eq_some_iff.mp hTake
    exact ⟨hLt, rest, rfl⟩
  · rintro ⟨hLt, rest, rfl⟩
    exact ⟨(envelope, rest), takeEnvelope_eq_some_iff.mpr ⟨hLt, rfl⟩, rfl⟩

/-- An envelope that fits a frame is read back from its body. -/
theorem ofBody?_body {envelope : Envelope} (h : (body envelope).length ≤ bodyLimit) :
    ofBody? (body envelope) = some envelope := by
  rw [length_body, bodyLimit] at h
  exact ofBody?_eq_some_iff.mpr ⟨by omega, List.prefix_rfl⟩

/-- What has arrived in a body is no longer than the body. -/
theorem length_body_le {envelope : Envelope} (h : ofBody? bytes = some envelope) :
    (body envelope).length ≤ bytes.length :=
  (ofBody?_eq_some_iff.mp h).2.length_le

/-- Whether an envelope can have arrived in a frame. -/
def Arrives (envelope : Envelope) : Prop :=
  ∃ bytes : Bytes, bytes.length ≤ bodyLimit ∧ ofBody? bytes = some envelope

/-- What can arrive is what can be sent. -/
theorem arrives_iff {envelope : Envelope} :
    Arrives envelope ↔ (body envelope).length ≤ bodyLimit := by
  constructor
  · rintro ⟨bytes, hLength, hBody⟩
    exact Nat.le_trans (length_body_le hBody) hLength
  · exact fun h => ⟨body envelope, h, ofBody?_body h⟩

theorem frame?_eq_none_iff {envelope : Envelope} :
    frame? envelope = none ↔ ¬Arrives envelope := by
  simp [frame?, arrives_iff]

end CipherRelay.Wire
