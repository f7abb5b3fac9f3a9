import CipherRelay.Threshold.Knowledge
/-!
Bob runs round 2 of the key agreement: he joins his secret to the keys of round 1. He encrypts the
three inputs under the joint key and holds the lead share of every joint decryption.
-/
namespace CipherRelay.Threshold

open Party Scheme

/-- Where Bob waits. -/
inductive BobState
  | getMessage
  | requestCC
  | requestRnd1PubKey
  | requestRnd1EvalMultKey
  | requestRnd1EvalSumKeys
  | sendRnd2SharedKey
  | sendRnd2EvalMultAB
  | sendRnd2EvalMultBAB
  | sendRnd2EvalSumKeysJoin
  | requestRnd3EvalMultFinal
  | sendCt1
  | sendCt2
  | sendCt3
  | sendLead (operation : Operation)
  | requestMain (operation : Operation)
  deriving DecidableEq, Repr

namespace BobState

/-- The written name of a state. -/
def name : BobState → String
  | .getMessage => "GetMessage"
  | .requestCC => "RequestCC"
  | .requestRnd1PubKey => "RequestRnd1PubKey"
  | .requestRnd1EvalMultKey => "RequestRnd1EvalMultKey"
  | .requestRnd1EvalSumKeys => "RequestRnd1EvalSumKeys"
  | .sendRnd2SharedKey => "SendRnd2SharedKey"
  | .sendRnd2EvalMultAB => "SendRnd2EvalMultAB"
  | .sendRnd2EvalMultBAB => "SendRnd2EvalMultBAB"
  | .sendRnd2EvalSumKeysJoin => "SendRnd2EvalSumKeysJoin"
  | .requestRnd3EvalMultFinal => "RequestRnd3EvalMultFinal"
  | .sendCt1 => "SendCt1"
  | .sendCt2 => "SendCt2"
  | .sendCt3 => "SendCt3"
  | .sendLead operation => "SendLead(" ++ operation.name ++ ")"
  | .requestMain operation => "RequestMain(" ++ operation.name ++ ")"

instance : ToString BobState := ⟨name⟩

end BobState

namespace Bob

variable {ρ : Type}

/-- Asks for an artifact. -/
def ask (kind : ArtifactKind) (state : BobState) : Action Knowledge ρ (Next BobState) :=
  return .send (.request kind) state

/-- Hands an artifact over. -/
def give {α : Type} [Artifact α] (kind : ArtifactKind) (artifact : α) (state : BobState) :
    Action Knowledge ρ (Next BobState) :=
  return .send (.send kind (Artifact.encode artifact)) state

def onAccept (_ : Message) : Action Knowledge ρ (Next BobState) :=
  ask .cryptoContext .requestCC

def onContext (message : Message) : Action Knowledge ρ (Next BobState) := do
  let cc : Context ← .decode message.payload
  .change fun known => { known with context := some cc }
  ask .rnd1PubKey .requestRnd1PubKey

/-- Makes a key pair on top of Alice's public key. -/
def onPubKey [RandomSource ρ] (message : Message) : Action Knowledge ρ (Next BobState) := do
  let lead : PublicKey ← .decode message.payload
  let known ← .data
  let cc ← .require "crypto context" known.context
  let keys ← .draw (cc.jointKeyGen lead)
  .change fun known => { known with jointKey := some keys.publicKey, keys := some keys }
  ask .rnd1EvalMultKey .requestRnd1EvalMultKey

def onMultKey (message : Message) : Action Knowledge ρ (Next BobState) := do
  let multRnd1 : SwitchKey ← .decode message.payload
  .change fun known => { known with multRnd1 := some multRnd1 }
  ask .rnd1EvalSumKeys .requestRnd1EvalSumKeys

def onSumKeys (message : Message) : Action Knowledge ρ (Next BobState) := do
  let sumRnd1 : RotationKeys ← .decode message.payload
  .change fun known => { known with sumRnd1 := some sumRnd1 }
  let known ← .data
  let jointKey ← .require "joint public key" known.jointKey
  give .rnd2SharedKey jointKey .sendRnd2SharedKey

def onSharedKeyStored (_ : Message) : Action Knowledge ρ (Next BobState) := do
  let known ← .data
  let cc ← .require "crypto context" known.context
  let keys ← .require "key pair" known.keys
  let first ← .require "round 1 mult key" known.multRnd1
  let ab ← .engine (cc.productKeyAB keys.privateKey first)
  .change fun known => { known with multAB := some ab, multRnd1 := none }
  give .rnd2EvalMultAB ab .sendRnd2EvalMultAB

def onABStored (_ : Message) : Action Knowledge ρ (Next BobState) := do
  let known ← .data
  let cc ← .require "crypto context" known.context
  let keys ← .require "key pair" known.keys
  let ab ← .require "round 2 AB mult key" known.multAB
  let bab ← .engine (cc.productKeyBAB keys.privateKey ab)
  .change fun known => { known with multAB := none }
  give .rnd2EvalMultBAB bab .sendRnd2EvalMultBAB

def onBABStored (_ : Message) : Action Knowledge ρ (Next BobState) := do
  let known ← .data
  let cc ← .require "crypto context" known.context
  let keys ← .require "key pair" known.keys
  let first ← .require "round 1 sum keys" known.sumRnd1
  let sumKeys ← .engine (cc.sumKeysJoin keys.privateKey first)
  .change fun known => { known with sumKeys := some sumKeys, sumRnd1 := none }
  give .rnd2EvalSumKeysJoin sumKeys .sendRnd2EvalSumKeysJoin

def onRound2Done (_ : Message) : Action Knowledge ρ (Next BobState) :=
  ask .rnd3EvalMultFinal .requestRnd3EvalMultFinal

/-- Keeps the product key and encrypts the inputs. -/
def onFinal [RandomSource ρ] (message : Message) : Action Knowledge ρ (Next BobState) := do
  let multKey : SwitchKey ← .decode message.payload
  .change fun known => { known with multKey := some multKey }
  let known ← .data
  let cc ← .require "crypto context" known.context
  let jointKey ← .require "joint public key" known.jointKey
  let ct1 ← .draw (cc.encrypt jointKey firstInput)
  let ct2 ← .draw (cc.encrypt jointKey secondInput)
  let ct3 ← .draw (cc.encrypt jointKey thirdInput)
  .change fun known => { known with cts := [ct1, ct2, ct3] }
  give .ct1 ct1 .sendCt1

/-- His share of the joint decryption of an operation. -/
def leadShare (operation : Operation) : Action Knowledge ρ Share := do
  let known ← .data
  let cc ← .require "crypto context" known.context
  let keys ← .require "key pair" known.keys
  let ct ← Knowledge.resultFor operation
  .engine (cc.leadShare keys.privateKey ct)

def sendLead (operation : Operation) : Action Knowledge ρ (Next BobState) := do
  let share ← leadShare operation
  give (.partialLead operation) share (.sendLead operation)

/-- Hands over the ciphertext after the one that was stored. -/
def giveCiphertext (index : Nat) (kind : ArtifactKind) (state : BobState) :
    Action Knowledge ρ (Next BobState) := do
  let known ← .data
  let ct ← .require ("ciphertext " ++ toString (index + 1)) known.cts[index]?
  give kind ct state

/-- Hands over the next ciphertext, and evaluates them after the third. -/
def onCiphertextStored (message : Message) : Action Knowledge ρ (Next BobState) :=
  match message.tag with
  | .ack .ct1 => giveCiphertext 1 .ct2 .sendCt2
  | .ack .ct2 => giveCiphertext 2 .ct3 .sendCt3
  | _ => do
      Knowledge.evaluate
      sendLead .add

def onLeadStored (message : Message) : Action Knowledge ρ (Next BobState) := do
  let operation ← Knowledge.operationOf message.tag
  ask (.partialMain operation) (.requestMain operation)

/-- What Alice's share of the joint decryption of an operation gives together with his. -/
def fuseMain (operation : Operation) (main : Share) : Action Knowledge ρ (List Int64) := do
  let known ← .data
  let cc ← .require "crypto context" known.context
  let lead ← leadShare operation
  .engine (cc.fuse lead main)

/-- Adds Alice's share to his and looks at the result. After the last operation he takes leave. -/
def onMain (message : Message) : Action Knowledge ρ (Next BobState) := do
  let operation ← Knowledge.operationOf message.tag
  let main : Share ← .decode message.payload
  let fused ← fuseMain operation main
  Knowledge.check operation fused
  match operation.next? with
  | some next => sendLead next
  | none => return .halt (.disconnect .bob)

/-- The steps of one operation. -/
def operationSteps (operation : Operation) : List (BobState × Step BobState Knowledge ρ) :=
  [(.sendLead operation, { trigger := .ack (.partialLead operation), action := onLeadStored }),
    (.requestMain operation,
      { trigger := .send (.partialMain operation), action := onMain
        retryOn := some (.nack (.partialMain operation)) })]

/-- A step that asks for an artifact until it is there. -/
def awaiting (kind : ArtifactKind) (action : Message → Action Knowledge ρ (Next BobState)) :
    Step BobState Knowledge ρ :=
  { trigger := .send kind, action, retryOn := some (.nack kind) }

/-- The steps of Bob. -/
def table [RandomSource ρ] : StepTable BobState Knowledge ρ :=
  StepTable.extend ⟨.getMessage, []⟩ <|
    [(.getMessage, { trigger := .serverAccept, action := onAccept }),
      (.requestCC, { trigger := .send .cryptoContext, action := onContext }),
      (.requestRnd1PubKey, awaiting .rnd1PubKey onPubKey),
      (.requestRnd1EvalMultKey, awaiting .rnd1EvalMultKey onMultKey),
      (.requestRnd1EvalSumKeys, awaiting .rnd1EvalSumKeys onSumKeys),
      (.sendRnd2SharedKey, { trigger := .ack .rnd2SharedKey, action := onSharedKeyStored }),
      (.sendRnd2EvalMultAB, { trigger := .ack .rnd2EvalMultAB, action := onABStored }),
      (.sendRnd2EvalMultBAB, { trigger := .ack .rnd2EvalMultBAB, action := onBABStored }),
      (.sendRnd2EvalSumKeysJoin, { trigger := .ack .rnd2EvalSumKeysJoin, action := onRound2Done }),
      (.requestRnd3EvalMultFinal, awaiting .rnd3EvalMultFinal onFinal),
      (.sendCt1, { trigger := .ack .ct1, action := onCiphertextStored }),
      (.sendCt2, { trigger := .ack .ct2, action := onCiphertextStored }),
      (.sendCt3, { trigger := .ack .ct3, action := onCiphertextStored })] ++
    Operation.all.flatMap operationSteps

end Bob

end CipherRelay.Threshold
