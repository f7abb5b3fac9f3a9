import CipherRelay.Handoff.Plaintext
import CipherRelay.Party.Machine
import CipherRelay.Scheme.Evaluation
/-!
The consumer of a handoff. It publishes a key, has the producer's ciphertext re-encrypted to it,
decrypts, and hands the plaintext back. Then it polls the ciphertext until the producer's disconnect
has cleared it, and only then takes leave.
-/
namespace CipherRelay.Handoff

open Party Scheme

/-- Where a consumer waits. -/
inductive ConsumerState
  | getMessage
  | requestCC
  | sendPublicKey
  | requestReEncryptionKey
  | requestCT
  | sendVecInt
  | awaitProducer
  deriving DecidableEq, Repr

namespace ConsumerState

/-- The written name of a state. -/
def name : ConsumerState → String
  | .getMessage => "GetMessage"
  | .requestCC => "RequestCC"
  | .sendPublicKey => "SendPublicKey"
  | .requestReEncryptionKey => "RequestReEncryptionKey"
  | .requestCT => "RequestCT"
  | .sendVecInt => "SendVecInt"
  | .awaitProducer => "AwaitProducer"

instance : ToString ConsumerState := ⟨name⟩

end ConsumerState

/-- What a consumer knows. -/
structure Consumer where
  context : Option Context := none
  keys : Option KeyPair := none
  reKey : Option SwitchKey := none
  result : Option (List Int64) := none
  deriving DecidableEq, Repr

namespace Consumer

variable {ρ : Type}

/-- A consumer passes once it has a result. -/
def passed (consumer : Consumer) : Bool :=
  consumer.result.isSome

def onAccept (_ : Message) : Action Consumer ρ (Next ConsumerState) :=
  return .send (.request .cryptoContext) .requestCC

def onContext [RandomSource ρ] (message : Message) : Action Consumer ρ (Next ConsumerState) := do
  let cc : Context ← .decode message.payload
  let keys ← .draw cc.keyGen
  .change fun consumer => { consumer with context := some cc, keys := some keys }
  return .send (.send .publicKey (Artifact.encode keys.publicKey)) .sendPublicKey

def onPublicKeyStored (_ : Message) : Action Consumer ρ (Next ConsumerState) :=
  return .send (.request .reEncryptionKey) .requestReEncryptionKey

def onReKey (message : Message) : Action Consumer ρ (Next ConsumerState) := do
  let reKey : SwitchKey ← .decode message.payload
  .change fun consumer => { consumer with reKey := some reKey }
  return .send (.request .ciphertext) .requestCT

def onCiphertext (message : Message) : Action Consumer ρ (Next ConsumerState) := do
  let consumer ← .data
  let cc ← .require "crypto context" consumer.context
  let keys ← .require "key pair" consumer.keys
  let reKey ← .require "re-encryption key" consumer.reKey
  let ct : Ciphertext ← .decode message.payload
  let switched ← .engine (cc.reEncrypt ct reKey)
  let plain ← .engine (cc.decrypt keys.privateKey switched)
  let result ← .compute (wrap plain cc.plaintextModulus)
  .change fun consumer => { consumer with result := some result }
  return .send (.send .vecInt (Artifact.encode result)) .sendVecInt

def onResultStored (_ : Message) : Action Consumer ρ (Next ConsumerState) :=
  return .send (.request .ciphertext) .awaitProducer

def onProducerGone (_ : Message) : Action Consumer ρ (Next ConsumerState) :=
  return .halt (.disconnect .consumer)

/-- The steps of a consumer. The last one waits for an absent ciphertext, so a present one makes it
ask again. -/
def table [RandomSource ρ] : StepTable ConsumerState Consumer ρ :=
  StepTable.extend ⟨.getMessage, []⟩
    [(.getMessage, { trigger := .serverAccept, action := onAccept }),
      (.requestCC, { trigger := .send .cryptoContext, action := onContext }),
      (.sendPublicKey, { trigger := .ack .publicKey, action := onPublicKeyStored }),
      (.requestReEncryptionKey,
        { trigger := .send .reEncryptionKey, action := onReKey
          retryOn := some (.nack .reEncryptionKey) }),
      (.requestCT,
        { trigger := .send .ciphertext, action := onCiphertext
          retryOn := some (.nack .ciphertext) }),
      (.sendVecInt, { trigger := .ack .vecInt, action := onResultStored }),
      (.awaitProducer,
        { trigger := .nack .ciphertext, action := onProducerGone
          retryOn := some (.send .ciphertext) })]

end Consumer

end CipherRelay.Handoff
