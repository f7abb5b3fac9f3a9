import CipherRelay.Handoff.Plaintext
import CipherRelay.Party.Machine
import CipherRelay.Scheme.Evaluation
/-!
The producer of a handoff. It stores its private key for the relay to derive the re-encryption key
from, stores the encryption of its vector, and waits for what the consumer decrypts. It passes as
long as its own decryption and the returned vector both equal the vector it encrypted.
-/
namespace CipherRelay.Handoff

open Party Scheme

/-- Where a producer waits. -/
inductive ProducerState
  | getMessage
  | requestCC
  | genKeys
  | genCT
  | requestVecInt
  deriving DecidableEq, Repr

namespace ProducerState

/-- The written name of a state. -/
def name : ProducerState → String
  | .getMessage => "GetMessage"
  | .requestCC => "RequestCC"
  | .genKeys => "GenKeys"
  | .genCT => "GenCT"
  | .requestVecInt => "RequestVecInt"

instance : ToString ProducerState := ⟨name⟩

end ProducerState

/-- What a producer knows. Without a vector of its own it draws one when it needs it. -/
structure Producer where
  context : Option Context := none
  keys : Option KeyPair := none
  ct : Option Ciphertext := none
  vector : Option (List Int64) := none
  passed : Bool := true
  deriving DecidableEq, Repr

namespace Producer

variable {ρ : Type}

/-- Compares the producer's own decryption and the returned vector with the vector it encrypted,
where slots without a value count as zero. A mismatch ends the pass for good. -/
def verify (returned : List Int64) : Action Producer ρ Bool := do
  let producer ← .data
  let cc ← .require "crypto context" producer.context
  let keys ← .require "key pair" producer.keys
  let ct ← .require "ciphertext" producer.ct
  let vector ← .require "plaintext vector" producer.vector
  let plain ← .engine (cc.decrypt keys.privateKey ct)
  let decrypted ← .compute (wrap plain cc.plaintextModulus)
  let returned ← .compute (wrap returned cc.plaintextModulus)
  .compute (Word.reserve cc.ringDimension.toNat)
  let expected :=
    vector ++ List.replicate (cc.ringDimension.toNat - vector.length) 0
  let same := decrypted = expected ∧ returned = expected
  if same then return true
  else
    .change fun producer => { producer with passed := false }
    return false

def onAccept (_ : Message) : Action Producer ρ (Next ProducerState) :=
  return .send (.request .cryptoContext) .requestCC

def onContext [RandomSource ρ] (message : Message) : Action Producer ρ (Next ProducerState) := do
  let cc : Context ← .decode message.payload
  let keys ← .draw cc.keyGen
  .change fun producer => { producer with context := some cc, keys := some keys }
  return .send (.send .privateKey (Artifact.encode keys.privateKey)) .genKeys

/-- The vector to encrypt. It is taken out of the producer's data, and drawn if there is none. -/
def takeVector [RandomSource ρ] (cc : Context) : Action Producer ρ (List Int64) := do
  let producer ← .data
  .change fun producer => { producer with vector := none }
  match producer.vector with
  | some vector => return vector
  | none =>
      let drawn ← .draw (Draw.vector cc.ringDimension.toNat packingBound)
      return drawn.map (·.toInt64)

/-- Encrypts the vector. The modulus must exceed the packing bound; this is looked at before the
vector is taken. -/
def onPrivateKeyStored [RandomSource ρ] (_ : Message) : Action Producer ρ (Next ProducerState) := do
  let producer ← .data
  let cc ← .require "crypto context" producer.context
  let keys ← .require "key pair" producer.keys
  if cc.plaintextModulus ≤ packingBound then
    .fail (.preconditionViolation
      ("plaintext modulus " ++ toString cc.plaintextModulus ++ " must exceed " ++
        toString packingBound))
  let vector ← takeVector cc
  let ct ← .draw (cc.encrypt keys.publicKey vector)
  .change fun producer => { producer with vector := some vector, ct := some ct }
  return .send (.send .ciphertext (Artifact.encode ct)) .genCT

def onCiphertextStored (_ : Message) : Action Producer ρ (Next ProducerState) :=
  return .send (.request .vecInt) .requestVecInt

def onResult (message : Message) : Action Producer ρ (Next ProducerState) := do
  let returned : List Int64 ← .decode message.payload
  let _ ← verify returned
  return .halt (.disconnect .producer)

/-- The steps of a producer. -/
def table [RandomSource ρ] : StepTable ProducerState Producer ρ :=
  StepTable.extend ⟨.getMessage, []⟩
    [(.getMessage, { trigger := .serverAccept, action := onAccept }),
      (.requestCC, { trigger := .send .cryptoContext, action := onContext }),
      (.genKeys, { trigger := .ack .privateKey, action := onPrivateKeyStored }),
      (.genCT, { trigger := .ack .ciphertext, action := onCiphertextStored }),
      (.requestVecInt,
        { trigger := .send .vecInt, action := onResult, retryOn := some (.nack .vecInt) })]

end Producer

end CipherRelay.Handoff
