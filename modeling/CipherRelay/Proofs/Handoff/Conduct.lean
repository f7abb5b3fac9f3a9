import CipherRelay.Handoff.Consumer
import CipherRelay.Handoff.Producer
import CipherRelay.Proofs.Exchange.Steps
/-!
The conduct of a producer and a consumer. All that they know and hand over is a function of the
secrets, the vector and the masks that have been drawn. The consumer's result is the producer's
vector as far as the slots can hold it, and the producer passes if that is the whole vector.
-/
namespace CipherRelay.Handoff

open Exchange Party Scheme

/-- Whether a producer with this vector of its own, or none, encrypts such a list. -/
def Encrypts (cc : Context) (own : Option (List Int64)) (vector : List Int64) : Prop :=
  match own with
  | some given => vector = given
  | none => vector.length = cc.ringDimension.toNat ∧
      ∀ x ∈ vector, 0 ≤ x.toInt ∧ x.toInt < packingBound.toNat

/-- All that is drawn in a handoff: the secrets and the masks of both public keys, the vector, the
mask of its encryption, and the mask of the re-encryption key. -/
structure Draws (cc : Context) (own : Option (List Int64)) where
  secret : cc.Slots
  mask : cc.Slots
  secret' : cc.Slots
  mask' : cc.Slots
  vector : List Int64
  encrypts : Encrypts cc own vector
  cover : cc.Slots
  switch : cc.Slots

/-- Before anything is drawn it does not matter what the draws are. -/
instance (cc : Context) (own : Option (List Int64)) : Inhabited (Draws cc own) where
  default :=
    { secret := 0, mask := 0, secret' := 0, mask' := 0
      vector := own.getD (List.replicate cc.ringDimension.toNat 0)
      encrypts := by
        cases own with
        | some given => rfl
        | none =>
            refine ⟨List.length_replicate, fun x hMem => ?_⟩
            rw [List.eq_of_mem_replicate hMem]
            decide
      cover := 0, switch := 0 }

namespace Draws

variable {cc : Context} {own : Option (List Int64)} (d : Draws cc own)

def keys : KeyPair :=
  ⟨cc.publicKey (Context.keyParts d.secret d.mask), cc.privateKey d.secret⟩

theorem publicKey_keys : d.keys.publicKey = cc.publicKey (Context.keyParts d.secret d.mask) := rfl

theorem privateKey_keys : d.keys.privateKey = cc.privateKey d.secret := rfl

def keys' : KeyPair :=
  ⟨cc.publicKey (Context.keyParts d.secret' d.mask'), cc.privateKey d.secret'⟩

theorem publicKey_keys' :
    d.keys'.publicKey = cc.publicKey (Context.keyParts d.secret' d.mask') := rfl

def parts : cc.Parts :=
  Context.sealedParts (Context.keyParts d.secret d.mask) (cc.slotsOf d.vector) d.cover

/-- The parts of the key that switches from the producer to the consumer. -/
def switchParts : cc.Parts :=
  Context.reKeyParts d.secret (Context.keyParts d.secret' d.mask') d.switch

/-- The producer's ciphertext opens to its vector under its own secret. -/
theorem opened_parts : Context.opened d.secret d.parts = cc.slotsOf d.vector :=
  Context.opened_sealedParts (Context.opened_keyParts d.secret d.mask) _ _

/-- Re-encrypted, it opens to the same vector under the consumer's secret. -/
theorem opened_switched :
    Context.opened d.secret' (Context.switchedParts d.parts d.switchParts) =
      cc.slotsOf d.vector := by
  have hKey : Context.opened d.secret' d.switchParts = d.secret :=
    Context.opened_reKeyParts (Context.opened_keyParts d.secret' d.mask') _ _
  rw [Context.opened_switchedParts, hKey, opened_parts]

/-- What the consumer decrypts. -/
def result : List Int64 :=
  cc.canonical (cc.slotsOf d.vector)

def payload : ArtifactKind → Bytes
  | .privateKey => Artifact.encode d.keys.privateKey
  | .publicKey => Artifact.encode d.keys'.publicKey
  | .reEncryptionKey => Artifact.encode (cc.switchKey d.switchParts)
  | .ciphertext => Artifact.encode (cc.ciphertext d.parts)
  | .vecInt => Artifact.encode d.result
  | _ => []

end Draws

def ProducerState.errand : ProducerState → Errand
  | .getMessage => .greeting
  | .requestCC => .context
  | .genKeys => .store .privateKey
  | .genCT => .store .ciphertext
  | .requestVecInt => .fetch .vecInt

def ConsumerState.errand : ConsumerState → Errand
  | .getMessage => .greeting
  | .requestCC => .context
  | .sendPublicKey => .store .publicKey
  | .requestReEncryptionKey => .fetch .reEncryptionKey
  | .requestCT => .fetch .ciphertext
  | .sendVecInt => .store .vecInt
  | .awaitProducer => .watch .ciphertext

variable {cc : Context} {own : Option (List Int64)}

/-- What a producer knows in each state. -/
def Producer.knows (d : Draws cc own) : ProducerState → Producer
  | .getMessage | .requestCC => { vector := own }
  | .genKeys => { context := some cc, keys := some d.keys, vector := own }
  | .genCT | .requestVecInt =>
      { context := some cc, keys := some d.keys, ct := some (cc.ciphertext d.parts),
        vector := some d.vector }

/-- What a consumer knows in each state. -/
def Consumer.knows (d : Draws cc own) : ConsumerState → Consumer
  | .getMessage | .requestCC => {}
  | .sendPublicKey | .requestReEncryptionKey =>
      { context := some cc, keys := some d.keys' }
  | .requestCT =>
      { context := some cc, keys := some d.keys', reKey := some (cc.switchKey d.switchParts) }
  | .sendVecInt | .awaitProducer =>
      { context := some cc, keys := some d.keys', reKey := some (cc.switchKey d.switchParts),
        result := some d.result }

/-- Whether a producer can encrypt: the modulus exceeds the packing bound, and its own vector, if it
has one, fits the slots. -/
def Encryptable (cc : Context) (own : Option (List Int64)) : Prop :=
  packingBound < cc.plaintextModulus ∧
    ∀ vector, own = some vector → vector.length ≤ cc.ringDimension.toNat

/-- The context, the session, and everything that is handed over. Nothing comes about without room
for vectors. Only the producer may fail: where it cannot encrypt, there is no ciphertext. -/
def setting (cc : Context) (own : Option (List Int64)) (session : SessionId) :
    Setting (Draws cc own) where
  context := cc
  session := session
  payload := Draws.payload
  feasible kind := cc.HasRoom ∧ (kind = .ciphertext → Encryptable cc own)
  excuse := ¬Encryptable cc own

variable {ρ : Type} [RandomSource ρ]

def Producer.action : ProducerState → Message → Action Producer ρ (Next ProducerState)
  | .getMessage => onAccept
  | .requestCC => onContext
  | .genKeys => onPrivateKeyStored
  | .genCT => onCiphertextStored
  | .requestVecInt => onResult

def Consumer.action : ConsumerState → Message → Action Consumer ρ (Next ConsumerState)
  | .getMessage => onAccept
  | .requestCC => onContext
  | .sendPublicKey => onPublicKeyStored
  | .requestReEncryptionKey => onReKey
  | .requestCT => onCiphertext
  | .sendVecInt => onResultStored
  | .awaitProducer => onProducerGone

def producer (cc : Context) (own : Option (List Int64)) :
    Conduct (Draws cc own) ProducerState Producer ρ where
  seat := .producer
  role := .producer
  table := Producer.table
  path := [.getMessage, .requestCC, .genKeys, .genCT, .requestVecInt]
  errand := ProducerState.errand
  action := Producer.action
  knows := Producer.knows
  result d := { Producer.knows d .requestVecInt with passed := d.result = cc.padded d.vector }

def consumer (cc : Context) (own : Option (List Int64)) :
    Conduct (Draws cc own) ConsumerState Consumer ρ where
  seat := .consumer
  role := .consumer
  table := Consumer.table
  path := [.getMessage, .requestCC, .sendPublicKey, .requestReEncryptionKey, .requestCT,
    .sendVecInt, .awaitProducer]
  errand := ConsumerState.errand
  action := Consumer.action
  knows := Consumer.knows
  result d := Consumer.knows d .awaitProducer

/-- The step of each state is the one of its errand. -/
theorem Producer.get?_table (s : ProducerState) :
    (table : StepTable ProducerState Producer ρ).get? s =
      some ⟨s.errand.trigger, action s, s.errand.retryOn⟩ := by
  cases s <;> rfl

theorem Consumer.get?_table (s : ConsumerState) :
    (table : StepTable ConsumerState Consumer ρ).get? s =
      some ⟨s.errand.trigger, action s, s.errand.retryOn⟩ := by
  cases s <;> rfl

def producerCourse : Course :=
  [.greeting, .context, .store .privateKey, .store .ciphertext, .fetch .vecInt]

def consumerCourse : Course :=
  [.greeting, .context, .store .publicKey, .fetch .reEncryptionKey, .fetch .ciphertext,
    .store .vecInt, .watch .ciphertext]

theorem course_producer :
    (producer cc own : Conduct _ _ _ ρ).course = producerCourse := rfl

theorem course_consumer :
    (consumer cc own : Conduct _ _ _ ρ).course = consumerCourse := rfl

namespace Producer

/-- The producer keeps the keys that it draws, and hands its private key over. -/
theorem onContext_eq (h : cc.IsValid) (d : Draws cc own) (source : ρ) :
    ∃ secret mask after, onContext (.send .cryptoContext (Artifact.encode cc))
        (knows d .requestCC, source) =
      .ok (.send (.send .privateKey (Draws.payload { d with secret, mask } .privateKey)) .genKeys)
        (knows { d with secret, mask } .genKeys, after) := by
  obtain ⟨secret, mask, after, hKeys⟩ := h.keyGen_eq_ok source
  refine ⟨secret, mask, after, ?_⟩
  simp only [onContext, Message.send, Action.decode_encode, pure_bind]
  rw [Draw.bind_eq (Action.draw_eq hKeys _)]
  rfl

/-- A producer offered more slots than memory holds crashes, and keeps its data. -/
theorem onContext_eq_crash (h : ¬cc.HasRoom) (l : Producer) (source : ρ) :
    onContext (.send .cryptoContext (Artifact.encode cc)) (l, source) =
      .error (.crash .capacity) (l, source) := by
  simp only [onContext, Message.send, Action.decode_encode, pure_bind]
  exact Action.keyGen_bind_eq_crash h _ l source

/-- What the producer draws without a vector of its own fits the slots and the modulus. -/
theorem takeVector_eq_ok (h : cc.IsValid) (d : Draws cc own) (l : Producer)
    (hVector : l.vector = own) (source : ρ) :
    ∃ vector after, takeVector cc (l, source) = .ok vector ({ l with vector := none }, after) ∧
      Encrypts cc own vector := by
  cases own with
  | some given =>
      refine ⟨given, source, ?_, rfl⟩
      simp only [takeVector, Action.data_bind, Action.change_bind, hVector]
      rfl
  | none =>
      obtain ⟨list, after, hDraw, hLength, hBelow⟩ :=
        Draw.vector_eq_ok (ε := EngineError) h.hasRoom (show packingBound ≠ 0 by decide) source
      refine ⟨list.map (·.toInt64), after, ?_, by simpa using hLength, fun x hMem => ?_⟩
      · simp only [takeVector, Action.data_bind, Action.change_bind, hVector]
        rw [Draw.bind_eq (Action.draw_eq hDraw _)]
        rfl
      · obtain ⟨word, hWord, rfl⟩ := List.mem_map.mp hMem
        have hLt := UInt64.lt_iff_toNat_lt.mp (hBelow word hWord)
        have hSmall : word.toNat < 65536 := hLt
        rw [toInt_toInt64 (by omega)]
        exact ⟨by omega, by exact_mod_cast hLt⟩

/-- The producer encrypts its vector if it can, and fails otherwise. -/
theorem onPrivateKeyStored_eq (h : cc.IsValid) (d : Draws cc own) (message : Message)
    (source : ρ) :
    (Encryptable cc own ∧
      ∃ (vector : List Int64) (encrypts : Encrypts cc own vector) (cover : cc.Slots) (after : ρ),
      onPrivateKeyStored message (knows d .genKeys, source) =
      .ok (.send (.send .ciphertext
          (Draws.payload { d with vector, encrypts, cover } .ciphertext)) .genCT)
        (knows { d with vector, encrypts, cover } .genCT, after)) ∨
    ¬Encryptable cc own ∧ ∃ failure data after,
      onPrivateKeyStored message (knows d .genKeys, source) = .error failure (data, after) := by
  by_cases hModulus : cc.plaintextModulus ≤ packingBound
  · refine .inr ⟨fun hFits => absurd hFits.1 (UInt64.not_lt.mpr hModulus), ?_⟩
    simp only [onPrivateKeyStored, knows, Action.data_bind, Action.require_some, pure_bind,
      if_pos hModulus]
    exact ⟨_, _, _, rfl⟩
  · obtain ⟨vector, between, hTake, hEncrypts⟩ :=
      takeVector_eq_ok h d (knows d .genKeys) rfl source
    by_cases hLength : vector.length ≤ cc.ringDimension.toNat
    · obtain ⟨cover, after, hEncrypt⟩ :=
        h.encrypt_eq_ok (Context.keyParts d.secret d.mask) hLength between
      have hFits : Encryptable cc own := by
        refine ⟨UInt64.not_le.mp hModulus, fun given hOwn => ?_⟩
        subst hOwn
        obtain rfl : vector = given := hEncrypts
        exact hLength
      refine .inl ⟨hFits, vector, hEncrypts, cover, after, ?_⟩
      simp only [knows] at hTake
      simp only [onPrivateKeyStored, knows, Action.data_bind, Action.require_some, pure_bind,
        if_neg hModulus]
      rw [Draw.bind_eq hTake, Draws.publicKey_keys, Draw.bind_eq (Action.draw_eq hEncrypt _)]
      rfl
    · obtain ⟨given, rfl, hLong⟩ :
          ∃ given, own = some given ∧ cc.ringDimension.toNat < given.length := by
        cases own with
        | some given =>
            obtain rfl : vector = given := hEncrypts
            exact ⟨vector, rfl, by omega⟩
        | none => exact absurd hEncrypts.1.le hLength
      obtain rfl : vector = given := hEncrypts
      refine .inr ⟨fun hFits => absurd (hFits.2 vector rfl) (Nat.not_le.mpr hLong), ?_⟩
      have hEncrypt := h.encrypt_eq_error (Context.keyParts d.secret d.mask) hLong between
      simp only [knows] at hTake
      simp only [onPrivateKeyStored, knows, Action.data_bind, Action.require_some, pure_bind,
        if_neg hModulus]
      rw [Draw.bind_eq hTake, Draws.publicKey_keys,
        Draw.bind_eq_error (Action.draw_eq_error hEncrypt _)]
      exact ⟨_, _, _, rfl⟩

omit [RandomSource ρ] in
/-- A comparison looks at what the producer's ciphertext opens to and at what the returned values
stand for. It changes nothing but the flag, and that only from true to false. -/
theorem verify_eq_ok (h : cc.IsValid) {l : Producer} {keys : KeyPair} {s : cc.Slots}
    {parts : cc.Parts} {vector returned wrapped : List Int64} {same : Bool}
    (hContext : l.context = some cc) (hKeys : l.keys = some keys)
    (hSecret : keys.privateKey = cc.privateKey s) (hCt : l.ct = some (cc.ciphertext parts))
    (hVector : l.vector = some vector)
    (hReturned : wrap returned cc.plaintextModulus = .ok wrapped)
    (hSame : same ↔ cc.canonical (Context.opened s parts) = cc.padded vector ∧
      wrapped = cc.padded vector) (source : ρ) :
    verify returned (l, source) = .ok same ({ l with passed := l.passed && same }, source) := by
  have hDecrypt : cc.decrypt keys.privateKey (cc.ciphertext parts) =
      .ok (cc.centered (Context.opened s parts)) := by
    rw [hSecret, h.decrypt_eq_ok]
  rcases l with ⟨context, pair, ct, own, passed⟩
  cases hContext
  cases hKeys
  cases hCt
  cases hVector
  simp only [verify, Action.data_bind, Action.require_some, pure_bind, hDecrypt, Action.engine_ok,
    h.wrap_centered, hReturned, Word.reserve_eq_ok h.hasRoom, Action.compute_ok]
  rw [← Context.padded]
  cases same with
  | true =>
      rw [if_pos (hSame.mp rfl), Bool.and_true]
      rfl
  | false =>
      rw [if_neg (hSame.not.mp Bool.false_ne_true), Bool.and_false]
      rfl

/-- The producer's own decryption and the returned vector are both the consumer's result. -/
theorem verify_eq (h : cc.IsValid) (d : Draws cc own) (source : ρ) :
    ∃ same, verify d.result (knows d .requestVecInt, source) =
      .ok same ((producer cc own : Conduct _ _ _ ρ).result d, source) := by
  have hReturned : wrap d.result cc.plaintextModulus = .ok d.result := h.wrap_canonical _
  have hSame : decide (d.result = cc.padded d.vector) ↔
      cc.canonical (Context.opened d.secret d.parts) = cc.padded d.vector ∧
        d.result = cc.padded d.vector := by
    rw [d.opened_parts, ← Draws.result, and_self, decide_eq_true_iff]
  exact ⟨_, verify_eq_ok h rfl rfl d.privateKey_keys rfl rfl hReturned hSame source⟩

/-- The producer finds its vector in its own ciphertext and in what is returned, and takes leave. -/
theorem onResult_eq (h : cc.IsValid) (d : Draws cc own) (source : ρ) :
    onResult (.send .vecInt (d.payload .vecInt)) (knows d .requestVecInt, source) =
      .ok (.halt (.disconnect .producer))
        ((producer cc own : Conduct _ _ _ ρ).result d, source) := by
  obtain ⟨same, hVerify⟩ := verify_eq h d source
  simp only [onResult, Message.send, Draws.payload, Action.decode_encode, pure_bind]
  rw [Draw.bind_eq hVerify]
  rfl

end Producer

namespace Consumer

variable {ρ : Type}

theorem onReKey_eq (d : Draws cc own) (source : ρ) :
    onReKey (.send .reEncryptionKey (d.payload .reEncryptionKey))
        (knows d .requestReEncryptionKey, source) =
      .ok (.send (.request .ciphertext) .requestCT) (knows d .requestCT, source) := by
  simp only [onReKey, Message.send, Draws.payload, Action.decode_encode, pure_bind]
  rfl

/-- The consumer decrypts the producer's vector and hands it back. -/
theorem onCiphertext_eq (h : cc.IsValid) (d : Draws cc own) (source : ρ) :
    onCiphertext (.send .ciphertext (d.payload .ciphertext)) (knows d .requestCT, source) =
      .ok (.send (.send .vecInt (d.payload .vecInt)) .sendVecInt)
        (knows d .sendVecInt, source) := by
  have hDecrypt : cc.decrypt d.keys'.privateKey
      (cc.ciphertext (Context.switchedParts d.parts d.switchParts)) =
        .ok (cc.centered (cc.slotsOf d.vector)) := by
    rw [Draws.keys', h.decrypt_eq_ok, Draws.opened_switched]
  have hResult : wrap (cc.centered (cc.slotsOf d.vector)) cc.plaintextModulus = .ok d.result :=
    h.wrap_centered _
  simp only [onCiphertext, knows, Message.send, Draws.payload, Action.data_bind,
    Action.require_some, Action.decode_encode, pure_bind, h.reEncrypt_eq_ok, Action.engine_ok,
    hDecrypt, hResult, Action.compute_ok]
  rfl

variable [RandomSource ρ]

/-- The consumer keeps the keys that it draws, and hands its public key over. -/
theorem onContext_eq (h : cc.IsValid) (d : Draws cc own) (source : ρ) :
    ∃ secret' mask' after, onContext (.send .cryptoContext (Artifact.encode cc))
        (knows d .requestCC, source) =
      .ok (.send (.send .publicKey (Draws.payload { d with secret', mask' } .publicKey))
          .sendPublicKey)
        (knows { d with secret', mask' } .sendPublicKey, after) := by
  obtain ⟨secret', mask', after, hKeys⟩ := h.keyGen_eq_ok source
  refine ⟨secret', mask', after, ?_⟩
  simp only [onContext, Message.send, Action.decode_encode, pure_bind]
  rw [Draw.bind_eq (Action.draw_eq hKeys _)]
  rfl

/-- So does a consumer. -/
theorem onContext_eq_crash (h : ¬cc.HasRoom) (l : Consumer) (source : ρ) :
    onContext (.send .cryptoContext (Artifact.encode cc)) (l, source) =
      .error (.crash .capacity) (l, source) := by
  simp only [onContext, Message.send, Action.decode_encode, pure_bind]
  exact Action.keyGen_bind_eq_crash h _ l source

end Consumer

end CipherRelay.Handoff
