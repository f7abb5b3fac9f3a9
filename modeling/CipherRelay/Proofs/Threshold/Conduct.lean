import CipherRelay.Proofs.Exchange.Conduct
import CipherRelay.Proofs.Threshold.Draws
/-!
The conduct of Alice and Bob. All that they know and hand over is a function of what has been drawn.
Where the slots hold the inputs, both find what they fuse as expected, one operation after another.
-/
namespace CipherRelay.Threshold

open Exchange Party Scheme

/-- The operations whose joint decryption comes before the one of another. -/
def Operation.before : Operation → List Operation
  | .add => []
  | .mult => [.add]
  | .sum => [.add, .mult]

def AliceState.errand : AliceState → Errand
  | .getMessage => .greeting
  | .requestCC => .context
  | .sendRnd1PubKey => .store .rnd1PubKey
  | .sendRnd1EvalMultKey => .store .rnd1EvalMultKey
  | .sendRnd1EvalSumKeys => .store .rnd1EvalSumKeys
  | .requestRnd2SharedKey => .fetch .rnd2SharedKey
  | .requestRnd2EvalMultAB => .fetch .rnd2EvalMultAB
  | .requestRnd2EvalMultBAB => .fetch .rnd2EvalMultBAB
  | .sendRnd3EvalMultFinal => .store .rnd3EvalMultFinal
  | .requestRnd2EvalSumKeysJoin => .fetch .rnd2EvalSumKeysJoin
  | .requestCt1 => .fetch .ct1
  | .requestCt2 => .fetch .ct2
  | .requestCt3 => .fetch .ct3
  | .requestLead operation => .fetch (.partialLead operation)
  | .sendMain operation => .store (.partialMain operation)
  | .awaitBob => .watch (.partialLead .sum)

def BobState.errand : BobState → Errand
  | .getMessage => .greeting
  | .requestCC => .context
  | .requestRnd1PubKey => .fetch .rnd1PubKey
  | .requestRnd1EvalMultKey => .fetch .rnd1EvalMultKey
  | .requestRnd1EvalSumKeys => .fetch .rnd1EvalSumKeys
  | .sendRnd2SharedKey => .store .rnd2SharedKey
  | .sendRnd2EvalMultAB => .store .rnd2EvalMultAB
  | .sendRnd2EvalMultBAB => .store .rnd2EvalMultBAB
  | .sendRnd2EvalSumKeysJoin => .store .rnd2EvalSumKeysJoin
  | .requestRnd3EvalMultFinal => .fetch .rnd3EvalMultFinal
  | .sendCt1 => .store .ct1
  | .sendCt2 => .store .ct2
  | .sendCt3 => .store .ct3
  | .sendLead operation => .store (.partialLead operation)
  | .requestMain operation => .fetch (.partialMain operation)

variable {cc : Context} (d : Draws cc)

/-- What Alice knows in each state. -/
@[simp]
def Alice.knows : AliceState → Knowledge
  | .getMessage | .requestCC => {}
  | .sendRnd1PubKey =>
      { context := some cc, keys := some d.aliceKeys, multRnd1 := some (cc.switchKey d.squareParts),
        sumRnd1 := some (cc.rotationKeys d.rotatedParts) }
  | .sendRnd1EvalMultKey =>
      { context := some cc, keys := some d.aliceKeys,
        sumRnd1 := some (cc.rotationKeys d.rotatedParts) }
  | .sendRnd1EvalSumKeys | .requestRnd2SharedKey | .requestRnd2EvalMultAB =>
      { context := some cc, keys := some d.aliceKeys }
  | .requestRnd2EvalMultBAB =>
      { context := some cc, keys := some d.aliceKeys,
        multAB := some (cc.switchKey d.squaresParts) }
  | .sendRnd3EvalMultFinal | .requestRnd2EvalSumKeysJoin =>
      { context := some cc, keys := some d.aliceKeys,
        multKey := some (cc.switchKey d.productParts) }
  | .requestCt1 => { d.supplied d.aliceKeys none with cts := [] }
  | .requestCt2 => { d.supplied d.aliceKeys none with cts := d.ciphertexts.take 1 }
  | .requestCt3 => { d.supplied d.aliceKeys none with cts := d.ciphertexts.take 2 }
  | .requestLead operation => d.evaluated d.aliceKeys none (Operation.before operation)
  | .sendMain operation =>
      d.evaluated d.aliceKeys none (Operation.before operation ++ [operation])
  | .awaitBob => d.evaluated d.aliceKeys none Operation.all

/-- What Bob knows in each state. -/
@[simp]
def Bob.knows : BobState → Knowledge
  | .getMessage | .requestCC => {}
  | .requestRnd1PubKey => { context := some cc }
  | .requestRnd1EvalMultKey =>
      { context := some cc, keys := some d.bobKeys, jointKey := some d.bobKeys.publicKey }
  | .requestRnd1EvalSumKeys =>
      { context := some cc, keys := some d.bobKeys, jointKey := some d.bobKeys.publicKey,
        multRnd1 := some (cc.switchKey d.squareParts) }
  | .sendRnd2SharedKey =>
      { context := some cc, keys := some d.bobKeys, jointKey := some d.bobKeys.publicKey,
        multRnd1 := some (cc.switchKey d.squareParts),
        sumRnd1 := some (cc.rotationKeys d.rotatedParts) }
  | .sendRnd2EvalMultAB =>
      { context := some cc, keys := some d.bobKeys, jointKey := some d.bobKeys.publicKey,
        multAB := some (cc.switchKey d.squaresParts),
        sumRnd1 := some (cc.rotationKeys d.rotatedParts) }
  | .sendRnd2EvalMultBAB =>
      { context := some cc, keys := some d.bobKeys, jointKey := some d.bobKeys.publicKey,
        sumRnd1 := some (cc.rotationKeys d.rotatedParts) }
  | .sendRnd2EvalSumKeysJoin | .requestRnd3EvalMultFinal =>
      { context := some cc, keys := some d.bobKeys, jointKey := some d.bobKeys.publicKey,
        sumKeys := some (cc.rotationKeys d.sumParts) }
  | .sendCt1 | .sendCt2 | .sendCt3 => d.supplied d.bobKeys (some d.bobKeys.publicKey)
  | .sendLead operation | .requestMain operation =>
      d.evaluated d.bobKeys (some d.bobKeys.publicKey) (Operation.before operation)

/-- Whether an artifact is made from the inputs. -/
def OfInputs : ArtifactKind → Prop
  | .ct1 | .ct2 | .ct3 | .partialLead _ | .partialMain _ => True
  | _ => False

/-- The context, the session, and everything that is handed over. Nothing comes about without room
for vectors. What is made from the inputs can only come about where the slots hold them, and only
Bob may fail, where they do not. -/
def setting (cc : Context) (session : SessionId) : Setting (Draws cc) where
  context := cc
  session := session
  payload := Draws.payload
  feasible kind := cc.HasRoom ∧ (OfInputs kind → 12 ≤ cc.ringDimension.toNat)
  excuse := cc.ringDimension.toNat < 12

variable {ρ : Type} [RandomSource ρ]

def Alice.action : AliceState → Message → Action Knowledge ρ (Next AliceState)
  | .getMessage => onAccept
  | .requestCC => onContext
  | .sendRnd1PubKey => onPubKeyStored
  | .sendRnd1EvalMultKey => onMultKeyStored
  | .sendRnd1EvalSumKeys => onRound1Done
  | .requestRnd2SharedKey => onSharedKey
  | .requestRnd2EvalMultAB => onMultAB
  | .requestRnd2EvalMultBAB => onMultBAB
  | .sendRnd3EvalMultFinal => onFinalStored
  | .requestRnd2EvalSumKeysJoin => onSumKeys
  | .requestCt1 | .requestCt2 | .requestCt3 => onCiphertext
  | .requestLead _ => onLead
  | .sendMain _ => onMainStored
  | .awaitBob => onBobGone

def Bob.action : BobState → Message → Action Knowledge ρ (Next BobState)
  | .getMessage => onAccept
  | .requestCC => onContext
  | .requestRnd1PubKey => onPubKey
  | .requestRnd1EvalMultKey => onMultKey
  | .requestRnd1EvalSumKeys => onSumKeys
  | .sendRnd2SharedKey => onSharedKeyStored
  | .sendRnd2EvalMultAB => onABStored
  | .sendRnd2EvalMultBAB => onBABStored
  | .sendRnd2EvalSumKeysJoin => onRound2Done
  | .requestRnd3EvalMultFinal => onFinal
  | .sendCt1 | .sendCt2 | .sendCt3 => onCiphertextStored
  | .sendLead _ => onLeadStored
  | .requestMain _ => onMain

def Alice.path : List AliceState :=
  [.getMessage, .requestCC, .sendRnd1PubKey, .sendRnd1EvalMultKey, .sendRnd1EvalSumKeys,
    .requestRnd2SharedKey, .requestRnd2EvalMultAB, .requestRnd2EvalMultBAB, .sendRnd3EvalMultFinal,
    .requestRnd2EvalSumKeysJoin, .requestCt1, .requestCt2, .requestCt3, .requestLead .add,
    .sendMain .add, .requestLead .mult, .sendMain .mult, .requestLead .sum, .sendMain .sum,
    .awaitBob]

def Bob.path : List BobState :=
  [.getMessage, .requestCC, .requestRnd1PubKey, .requestRnd1EvalMultKey, .requestRnd1EvalSumKeys,
    .sendRnd2SharedKey, .sendRnd2EvalMultAB, .sendRnd2EvalMultBAB, .sendRnd2EvalSumKeysJoin,
    .requestRnd3EvalMultFinal, .sendCt1, .sendCt2, .sendCt3, .sendLead .add, .requestMain .add,
    .sendLead .mult, .requestMain .mult, .sendLead .sum, .requestMain .sum]

def alice (cc : Context) : Conduct (Draws cc) AliceState Knowledge ρ where
  seat := .alice
  role := .alice
  table := Alice.table
  path := Alice.path
  errand := AliceState.errand
  action := Alice.action
  knows := Alice.knows
  result d := d.evaluated d.aliceKeys none Operation.all

def bob (cc : Context) : Conduct (Draws cc) BobState Knowledge ρ where
  seat := .bob
  role := .bob
  table := Bob.table
  path := Bob.path
  errand := BobState.errand
  action := Bob.action
  knows := Bob.knows
  result d := d.evaluated d.bobKeys (some d.bobKeys.publicKey) Operation.all

theorem Alice.table_eq : (table : StepTable AliceState Knowledge ρ) =
    .extend ⟨.getMessage, []⟩
      (path.map fun s => (s, ⟨s.errand.trigger, action s, s.errand.retryOn⟩)) :=
  congrArg (StepTable.extend _) rfl

/-- The step of each of her states is the one of its errand. -/
theorem Alice.get?_table (s : AliceState) :
    (table : StepTable AliceState Knowledge ρ).get? s =
      some ⟨s.errand.trigger, action s, s.errand.retryOn⟩ := by
  rw [table_eq]
  refine StepTable.get?_extend_map _ _ (.inl ?_)
  cases s with
  | requestLead operation | sendMain operation => cases operation <;> decide
  | _ => decide

theorem Bob.table_eq : (table : StepTable BobState Knowledge ρ) =
    .extend ⟨.getMessage, []⟩
      (path.map fun s => (s, ⟨s.errand.trigger, action s, s.errand.retryOn⟩)) :=
  congrArg (StepTable.extend _) rfl

theorem Bob.get?_table (s : BobState) :
    (table : StepTable BobState Knowledge ρ).get? s =
      some ⟨s.errand.trigger, action s, s.errand.retryOn⟩ := by
  rw [table_eq]
  refine StepTable.get?_extend_map _ _ (.inl ?_)
  cases s with
  | sendLead operation | requestMain operation => cases operation <;> decide
  | _ => decide

def aliceCourse : Course :=
  [.greeting, .context, .store .rnd1PubKey, .store .rnd1EvalMultKey, .store .rnd1EvalSumKeys,
    .fetch .rnd2SharedKey, .fetch .rnd2EvalMultAB, .fetch .rnd2EvalMultBAB,
    .store .rnd3EvalMultFinal, .fetch .rnd2EvalSumKeysJoin, .fetch .ct1, .fetch .ct2, .fetch .ct3,
    .fetch (.partialLead .add), .store (.partialMain .add), .fetch (.partialLead .mult),
    .store (.partialMain .mult), .fetch (.partialLead .sum), .store (.partialMain .sum),
    .watch (.partialLead .sum)]

def bobCourse : Course :=
  [.greeting, .context, .fetch .rnd1PubKey, .fetch .rnd1EvalMultKey, .fetch .rnd1EvalSumKeys,
    .store .rnd2SharedKey, .store .rnd2EvalMultAB, .store .rnd2EvalMultBAB,
    .store .rnd2EvalSumKeysJoin, .fetch .rnd3EvalMultFinal, .store .ct1, .store .ct2, .store .ct3,
    .store (.partialLead .add), .fetch (.partialMain .add), .store (.partialLead .mult),
    .fetch (.partialMain .mult), .store (.partialLead .sum), .fetch (.partialMain .sum)]

theorem course_alice : (alice cc : Conduct _ _ _ ρ).course = aliceCourse := rfl

theorem course_bob : (bob cc : Conduct _ _ _ ρ).course = bobCourse := rfl

end CipherRelay.Threshold
