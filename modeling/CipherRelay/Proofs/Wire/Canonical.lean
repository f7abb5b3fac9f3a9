import CipherRelay.Proofs.Wire.Bodies
import CipherRelay.Proofs.Wire.Streams
/-!
Canonical bodies. A body is the session, the numbers of the tag, the length of the payload and the
payload; every other byte string that a frame can carry is such a body with something after it, or
it holds no envelope at all. No envelope's body begins another's, so the front of a frame settles
which envelope it is and the decoder has no choice to make.
-/
namespace CipherRelay.Wire

open Bytes (littleEndian)

/-- The wire number of a role. -/
def roleNumber : Role → Nat
  | .producer => 0
  | .consumer => 1
  | .alice => 2
  | .bob => 3

/-- The wire number of an operation. -/
def operationNumber : Operation → Nat
  | .add => 0
  | .mult => 1
  | .sum => 2

/-- The wire numbers of a kind: its own, and its operation's where it has one. -/
def kindNumbers : ArtifactKind → List Nat
  | .cryptoContext => [0]
  | .reEncryptionKey => [1]
  | .privateKey => [2]
  | .publicKey => [3]
  | .ciphertext => [4]
  | .vecInt => [5]
  | .rnd1PubKey => [6]
  | .rnd1EvalMultKey => [7]
  | .rnd1EvalSumKeys => [8]
  | .rnd2SharedKey => [9]
  | .rnd2EvalMultAB => [10]
  | .rnd2EvalMultBAB => [11]
  | .rnd2EvalSumKeysJoin => [12]
  | .rnd3EvalMultFinal => [13]
  | .ct1 => [14]
  | .ct2 => [15]
  | .ct3 => [16]
  | .partialLead operation => [17, operationNumber operation]
  | .partialMain operation => [18, operationNumber operation]

/-- The wire numbers of a tag: its own, and those of what it is about. -/
def tagNumbers : Tag → List Nat
  | .serverAccept => [0]
  | .request kind => 1 :: kindNumbers kind
  | .send kind => 2 :: kindNumbers kind
  | .ack kind => 3 :: kindNumbers kind
  | .nack kind => 4 :: kindNumbers kind
  | .disconnect role => [5, roleNumber role]
  | .deny => [6]

theorem writeRole_eq (role : Role) : writeRole role = littleEndian 4 (roleNumber role) := by
  cases role <;> rfl

theorem writeOperation_eq (operation : Operation) :
    writeOperation operation = littleEndian 4 (operationNumber operation) := by
  cases operation <;> rfl

theorem writeKind_eq (kind : ArtifactKind) :
    writeKind kind = (kindNumbers kind).flatMap (littleEndian 4) := by
  cases kind with
  | partialLead operation | partialMain operation =>
      simp [writeKind, kindNumbers, number, writeOperation_eq]
  | _ => rfl

/-- A tag is written as its numbers, four bytes each. -/
theorem writeTag_eq (tag : Tag) : writeTag tag = (tagNumbers tag).flatMap (littleEndian 4) := by
  cases tag with
  | serverAccept | deny => rfl
  | disconnect role => simp [writeTag, tagNumbers, number, writeRole_eq]
  | request kind | send kind | ack kind | nack kind =>
      simp [writeTag, tagNumbers, number, writeKind_eq]

/-- The parts of a body. -/
theorem body_eq (envelope : Envelope) :
    body envelope = envelope.session.bytes ++
      ((tagNumbers envelope.message.tag).flatMap (littleEndian 4) ++
        (littleEndian 8 envelope.message.payload.length ++ envelope.message.payload)) := by
  rw [body, writeTag_eq, List.append_assoc, List.append_assoc]

/-- A byte string holds an envelope where it begins with the envelope's body. The length of a
payload that has to fit the byte string is written in full. -/
theorem ofBody?_eq_some_iff_begins {bytes : Bytes} {envelope : Envelope}
    (hBytes : bytes.length < 256 ^ 8) :
    ofBody? bytes = some envelope ↔ body envelope <+: bytes := by
  rw [ofBody?_eq_some_iff, and_iff_right_iff_imp]
  intro hPrefix
  have hBody := length_body envelope
  have hLength := hPrefix.length_le
  omega

/-- A byte string holds no envelope where it begins with no envelope's body. -/
theorem ofBody?_eq_none_iff {bytes : Bytes} (hBytes : bytes.length < 256 ^ 8) :
    ofBody? bytes = none ↔ ∀ envelope, ¬body envelope <+: bytes := by
  simp only [Option.eq_none_iff_forall_ne_some, ne_eq, ofBody?_eq_some_iff_begins hBytes]

theorem ofBody_eq_envelope_iff {bytes : Bytes} {envelope : Envelope} :
    Item.ofBody bytes = .envelope envelope ↔ ofBody? bytes = some envelope := by
  unfold Item.ofBody
  cases ofBody? bytes with
  | none => simp
  | some found => simp

theorem ofBody_eq_malformed_iff {bytes : Bytes} :
    Item.ofBody bytes = .malformed ↔ ofBody? bytes = none := by
  unfold Item.ofBody
  cases ofBody? bytes with
  | none => simp
  | some found => simp

/-- A body begins no other envelope's body. -/
theorem body_prefix_body {first second : Envelope}
    (hFirst : first.message.payload.length < 256 ^ 8)
    (hSecond : second.message.payload.length < 256 ^ 8) (h : body first <+: body second) :
    first = second := by
  have hLonger : ofBody? (body second) = some second :=
    ofBody?_eq_some_iff.mpr ⟨hSecond, List.prefix_rfl⟩
  have hShorter : ofBody? (body second) = some first := ofBody?_eq_some_iff.mpr ⟨hFirst, h⟩
  exact Option.some.inj (hShorter.symm.trans hLonger)

/-- What a decoder makes of one complete frame. -/
structure Canonical (bytes : Bytes) : Prop where
  /-- An envelope is told just where its body is the front of the frame's. -/
  told_iff : ∀ envelope, Decoder.start.feed (framed bytes) = (.start, [.envelope envelope]) ↔
    body envelope <+: bytes
  /-- The front belongs to one envelope at most. -/
  unique : ∀ first second, body first <+: bytes → body second <+: bytes → first = second
  /-- Where no envelope's body is the front, the frame is malformed. -/
  malformed_iff : Decoder.start.feed (framed bytes) = (.start, [.malformed]) ↔
    ∀ envelope, ¬body envelope <+: bytes
  /-- Written again, an envelope gives the bytes that it was read from and leaves out what was
  passed over. -/
  written_again : ∀ envelope,
    Decoder.start.feed (framed bytes) = (.start, [.envelope envelope]) →
      frame? envelope = some (framed (body envelope)) ∧ ∃ ignored, bytes = body envelope ++ ignored

/-- Every body within the limit is canonical. -/
theorem canonical {bytes : Bytes} (hBytes : bytes.length ≤ bodyLimit) : Canonical bytes := by
  have hWord : bytes.length < 256 ^ 8 := by
    rw [bodyLimit] at hBytes
    omega
  have hFed := Decoder.feed_framed hBytes
  have hTold : ∀ envelope, Decoder.start.feed (framed bytes) = (.start, [.envelope envelope]) ↔
      body envelope <+: bytes := by
    intro envelope
    rw [hFed, Prod.mk.injEq, List.singleton_inj, ofBody_eq_envelope_iff,
      ofBody?_eq_some_iff_begins hWord]
    exact and_iff_right rfl
  constructor
  case told_iff => exact hTold
  case unique =>
    intro first second hFirst hSecond
    have hOne := (ofBody?_eq_some_iff_begins hWord).mpr hFirst
    have hOther := (ofBody?_eq_some_iff_begins hWord).mpr hSecond
    exact Option.some.inj (hOne.symm.trans hOther)
  case malformed_iff =>
    rw [hFed, Prod.mk.injEq, List.singleton_inj, ofBody_eq_malformed_iff,
      ofBody?_eq_none_iff hWord]
    exact and_iff_right rfl
  case written_again =>
    intro envelope h
    obtain ⟨ignored, hIgnored⟩ := (hTold envelope).mp h
    have hBody := ((hTold envelope).mp h).length_le
    exact ⟨frame?_eq_some_iff.mpr ⟨Nat.le_trans hBody hBytes, rfl⟩, ignored, hIgnored.symm⟩

/-- Bodies are canonical: the parts in their order and nothing else make a body, every body within
the limit tells the one envelope whose body it begins with or is malformed, and envelopes whose
payloads have a length in a word never share a body, not even as the front of a longer one. -/
theorem bodies_canonical :
    (∀ envelope, envelope.session.bytes.length = 32 ∧
      body envelope = envelope.session.bytes ++
        ((tagNumbers envelope.message.tag).flatMap (littleEndian 4) ++
          (littleEndian 8 envelope.message.payload.length ++ envelope.message.payload))) ∧
    (∀ bytes : Bytes, bytes.length ≤ bodyLimit → Canonical bytes) ∧
    ∀ first second : Envelope, first.message.payload.length < 256 ^ 8 →
      second.message.payload.length < 256 ^ 8 → body first <+: body second → first = second := by
  refine ⟨fun envelope => ⟨envelope.session.length_bytes, body_eq envelope⟩, fun _ => canonical, ?_⟩
  intro first second hFirst hSecond
  exact body_prefix_body hFirst hSecond

/-- An acceptance with a byte too many, a kind whose operation has no such number, and two
envelopes of one session. -/
theorem bodies_canonical_sample :
    let session : SessionId := ⟨List.replicate 32 7, rfl⟩
    let accept : Envelope := ⟨session, .serverAccept, []⟩
    let deny : Envelope := ⟨session, .deny, []⟩
    let lead := session.bytes ++ [2, 17, 3].flatMap (littleEndian 4) ++ littleEndian 8 0
    Decoder.start.feed (framed (body accept ++ [9])) = (.start, [.envelope accept]) ∧
      Decoder.start.feed (framed lead) = (.start, [.malformed]) ∧ ¬body accept <+: body deny := by
  intro session accept deny lead
  have hTold := (bodies_canonical.2.1 (body accept ++ [9]) (by decide)).told_iff accept
  have hMalformed := (bodies_canonical.2.1 lead (by decide)).malformed_iff
  refine ⟨hTold.mpr (List.prefix_append _ _), hMalformed.mpr ?_, fun h => ?_⟩
  · exact (ofBody?_eq_none_iff (by decide)).mp rfl
  · exact absurd (bodies_canonical.2.2 accept deny (by decide) (by decide) h) (by decide)

end CipherRelay.Wire
