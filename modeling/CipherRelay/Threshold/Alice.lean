import CipherRelay.Threshold.Knowledge
/-!
Alice runs rounds 1 and 3 of the key agreement and holds the main share of every joint decryption.
After the last share she polls Bob's until his disconnect has cleared it, and only then takes leave.
-/
namespace CipherRelay.Threshold

open Party Scheme

/-- Where Alice waits. -/
inductive AliceState
  | getMessage
  | requestCC
  | sendRnd1PubKey
  | sendRnd1EvalMultKey
  | sendRnd1EvalSumKeys
  | requestRnd2SharedKey
  | requestRnd2EvalMultAB
  | requestRnd2EvalMultBAB
  | sendRnd3EvalMultFinal
  | requestRnd2EvalSumKeysJoin
  | requestCt1
  | requestCt2
  | requestCt3
  | requestLead (operation : Operation)
  | sendMain (operation : Operation)
  | awaitBob
  deriving DecidableEq, Repr

namespace AliceState

/-- The written name of a state. -/
def name : AliceState → String
  | .getMessage => "GetMessage"
  | .requestCC => "RequestCC"
  | .sendRnd1PubKey => "SendRnd1PubKey"
  | .sendRnd1EvalMultKey => "SendRnd1EvalMultKey"
  | .sendRnd1EvalSumKeys => "SendRnd1EvalSumKeys"
  | .requestRnd2SharedKey => "RequestRnd2SharedKey"
  | .requestRnd2EvalMultAB => "RequestRnd2EvalMultAB"
  | .requestRnd2EvalMultBAB => "RequestRnd2EvalMultBAB"
  | .sendRnd3EvalMultFinal => "SendRnd3EvalMultFinal"
  | .requestRnd2EvalSumKeysJoin => "RequestRnd2EvalSumKeysJoin"
  | .requestCt1 => "RequestCt1"
  | .requestCt2 => "RequestCt2"
  | .requestCt3 => "RequestCt3"
  | .requestLead operation => "RequestLead(" ++ operation.name ++ ")"
  | .sendMain operation => "SendMain(" ++ operation.name ++ ")"
  | .awaitBob => "AwaitBob"

instance : ToString AliceState := ⟨name⟩

end AliceState

namespace Alice

variable {ρ : Type}

/-- Asks for an artifact. -/
def ask (kind : ArtifactKind) (state : AliceState) : Action Knowledge ρ (Next AliceState) :=
  return .send (.request kind) state

/-- Hands an artifact over. -/
def give {α : Type} [Artifact α] (kind : ArtifactKind) (artifact : α) (state : AliceState) :
    Action Knowledge ρ (Next AliceState) :=
  return .send (.send kind (Artifact.encode artifact)) state

def onAccept (_ : Message) : Action Knowledge ρ (Next AliceState) :=
  ask .cryptoContext .requestCC

/-- Makes the key pair and the keys of round 1. -/
def onContext [RandomSource ρ] (message : Message) : Action Knowledge ρ (Next AliceState) := do
  let cc : Context ← .decode message.payload
  let keys ← .draw cc.keyGen
  let multRnd1 ← .draw (cc.productKey keys.privateKey)
  let sumRnd1 ← .draw (cc.sumKeys keys.privateKey)
  .change fun known =>
    { known with
      context := some cc, keys := some keys, multRnd1 := some multRnd1, sumRnd1 := some sumRnd1 }
  give .rnd1PubKey keys.publicKey .sendRnd1PubKey

def onPubKeyStored (_ : Message) : Action Knowledge ρ (Next AliceState) := do
  let known ← .data
  let key ← .require "round 1 mult key" known.multRnd1
  .change fun known => { known with multRnd1 := none }
  give .rnd1EvalMultKey key .sendRnd1EvalMultKey

def onMultKeyStored (_ : Message) : Action Knowledge ρ (Next AliceState) := do
  let known ← .data
  let keys ← .require "round 1 sum keys" known.sumRnd1
  .change fun known => { known with sumRnd1 := none }
  give .rnd1EvalSumKeys keys .sendRnd1EvalSumKeys

def onRound1Done (_ : Message) : Action Knowledge ρ (Next AliceState) :=
  ask .rnd2SharedKey .requestRnd2SharedKey

/-- Bob encrypts under the joint key. Alice only looks whether it is one. -/
def onSharedKey (message : Message) : Action Knowledge ρ (Next AliceState) := do
  let _ : PublicKey ← .decode message.payload
  ask .rnd2EvalMultAB .requestRnd2EvalMultAB

def onMultAB (message : Message) : Action Knowledge ρ (Next AliceState) := do
  let ab : SwitchKey ← .decode message.payload
  .change fun known => { known with multAB := some ab }
  ask .rnd2EvalMultBAB .requestRnd2EvalMultBAB

/-- Completes the product key. -/
def onMultBAB (message : Message) : Action Knowledge ρ (Next AliceState) := do
  let bab : SwitchKey ← .decode message.payload
  let known ← .data
  let cc ← .require "crypto context" known.context
  let keys ← .require "key pair" known.keys
  let ab ← .require "round 2 AB mult key" known.multAB
  let multKey ← .engine (cc.productKeyFinal keys.privateKey ab bab)
  .change fun known => { known with multKey := some multKey, multAB := none }
  give .rnd3EvalMultFinal multKey .sendRnd3EvalMultFinal

def onFinalStored (_ : Message) : Action Knowledge ρ (Next AliceState) :=
  ask .rnd2EvalSumKeysJoin .requestRnd2EvalSumKeysJoin

def onSumKeys (message : Message) : Action Knowledge ρ (Next AliceState) := do
  let sumKeys : RotationKeys ← .decode message.payload
  .change fun known => { known with sumKeys := some sumKeys }
  ask .ct1 .requestCt1

/-- Keeps a ciphertext and asks for the next one; from the third on she evaluates them. -/
def onCiphertext (message : Message) : Action Knowledge ρ (Next AliceState) := do
  let ct : Ciphertext ← .decode message.payload
  .change fun known => { known with cts := known.cts ++ [ct] }
  let known ← .data
  match known.cts.length with
  | 1 => ask .ct2 .requestCt2
  | 2 => ask .ct3 .requestCt3
  | _ => do
      Knowledge.evaluate
      ask (.partialLead .add) (.requestLead .add)

/-- Her share of the joint decryption of an operation, and what it gives together with Bob's. -/
def fuseLead (operation : Operation) (lead : Share) : Action Knowledge ρ (Share × List Int64) := do
  let known ← .data
  let cc ← .require "crypto context" known.context
  let keys ← .require "key pair" known.keys
  let ct ← Knowledge.resultFor operation
  let main ← .engine (cc.mainShare keys.privateKey ct)
  let fused ← .engine (cc.fuse lead main)
  return (main, fused)

/-- Adds her share to Bob's, looks at the result and hands her share over. -/
def onLead (message : Message) : Action Knowledge ρ (Next AliceState) := do
  let operation ← Knowledge.operationOf message.tag
  let lead : Share ← .decode message.payload
  let (main, fused) ← fuseLead operation lead
  Knowledge.check operation fused
  give (.partialMain operation) main (.sendMain operation)

def onMainStored (message : Message) : Action Knowledge ρ (Next AliceState) := do
  let operation ← Knowledge.operationOf message.tag
  match operation.next? with
  | some next => ask (.partialLead next) (.requestLead next)
  | none => ask (.partialLead operation) .awaitBob

def onBobGone (_ : Message) : Action Knowledge ρ (Next AliceState) :=
  return .halt (.disconnect .alice)

/-- The steps of one operation. -/
def operationSteps (operation : Operation) : List (AliceState × Step AliceState Knowledge ρ) :=
  [(.requestLead operation,
      { trigger := .send (.partialLead operation), action := onLead
        retryOn := some (.nack (.partialLead operation)) }),
    (.sendMain operation, { trigger := .ack (.partialMain operation), action := onMainStored })]

/-- A step that asks for an artifact until it is there. -/
def awaiting (kind : ArtifactKind) (action : Message → Action Knowledge ρ (Next AliceState)) :
    Step AliceState Knowledge ρ :=
  { trigger := .send kind, action, retryOn := some (.nack kind) }

/-- The steps of Alice. The last one waits for an absent share, so a present one makes her ask
again. -/
def table [RandomSource ρ] : StepTable AliceState Knowledge ρ :=
  StepTable.extend ⟨.getMessage, []⟩ <|
    [(.getMessage, { trigger := .serverAccept, action := onAccept }),
      (.requestCC, { trigger := .send .cryptoContext, action := onContext }),
      (.sendRnd1PubKey, { trigger := .ack .rnd1PubKey, action := onPubKeyStored }),
      (.sendRnd1EvalMultKey, { trigger := .ack .rnd1EvalMultKey, action := onMultKeyStored }),
      (.sendRnd1EvalSumKeys, { trigger := .ack .rnd1EvalSumKeys, action := onRound1Done }),
      (.requestRnd2SharedKey, awaiting .rnd2SharedKey onSharedKey),
      (.requestRnd2EvalMultAB, awaiting .rnd2EvalMultAB onMultAB),
      (.requestRnd2EvalMultBAB, awaiting .rnd2EvalMultBAB onMultBAB),
      (.sendRnd3EvalMultFinal, { trigger := .ack .rnd3EvalMultFinal, action := onFinalStored }),
      (.requestRnd2EvalSumKeysJoin, awaiting .rnd2EvalSumKeysJoin onSumKeys),
      (.requestCt1, awaiting .ct1 onCiphertext),
      (.requestCt2, awaiting .ct2 onCiphertext),
      (.requestCt3, awaiting .ct3 onCiphertext)] ++
    Operation.all.flatMap operationSteps ++
    [(.awaitBob,
        { trigger := .nack (.partialLead .sum), action := onBobGone
          retryOn := some (.send (.partialLead .sum)) })]

end Alice

end CipherRelay.Threshold
