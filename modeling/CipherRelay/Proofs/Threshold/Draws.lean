import CipherRelay.Proofs.Party.Actions
import CipherRelay.Proofs.Threshold.Expected
import CipherRelay.Threshold.Knowledge
/-!
What comes of the draws of a threshold run. Alice's secret and masks, Bob's secret and the masks of
the three encryptions determine all keys, all ciphertexts and all shares. The joint secret opens the
product key to its square, each sum key to its rotation, and so the evaluated ciphertexts to what
the operations give on the inputs.
-/
namespace CipherRelay.Threshold

open Party Scheme

/-- All that is drawn in a threshold run. -/
structure Draws (cc : Context) where
  alice : cc.Slots
  /-- The masks of Alice's public key, her product key and her sum keys. -/
  mask : cc.Slots
  product : cc.Slots
  sums : UInt64 → cc.Slots
  bob : cc.Slots
  /-- The masks of the three encryptions. -/
  first : cc.Slots
  second : cc.Slots
  third : cc.Slots

/-- Before anything is drawn it does not matter what the draws are. -/
instance (cc : Context) : Inhabited (Draws cc) where
  default :=
    { alice := 0, mask := 0, product := 0, sums := fun _ => 0, bob := 0, first := 0, second := 0
      third := 0 }

namespace Draws

variable {cc : Context} (d : Draws cc)

/-- The parts of Alice's public key. -/
def leadParts : cc.Parts := Context.keyParts d.alice d.mask

/-- The parts of the joint public key. -/
def keyParts : cc.Parts := Context.jointParts d.leadParts d.bob

/-- The joint key opens to zero under the joint secret. -/
theorem opened_keyParts : Context.opened (d.alice + d.bob) d.keyParts = 0 :=
  Context.opened_jointParts (Context.opened_keyParts _ _) _

/-- The parts of the product key of round 1. -/
def squareParts : cc.Parts := Context.switchParts (d.alice * d.alice) d.alice d.product

/-- The parts of the product key to which Bob has added his square. -/
def squaresParts : cc.Parts := Context.joinedParts d.squareParts (d.bob * d.bob) d.bob

/-- After round 2 the product key opens to the squares of both secrets, without the mixed terms. -/
theorem opened_squaresParts :
    Context.opened (d.alice + d.bob) d.squaresParts = d.alice * d.alice + d.bob * d.bob := by
  rw [squaresParts, Context.opened_joinedParts, squareParts, Context.opened_switchParts]

/-- The parts of the product key. -/
def productParts : cc.Parts :=
  Context.completedParts d.squaresParts (Context.halfParts d.bob) d.alice

/-- After round 3 it opens to the square of the joint secret. -/
theorem opened_productParts :
    Context.opened (d.alice + d.bob) d.productParts =
      (d.alice + d.bob) * (d.alice + d.bob) :=
  Context.opened_completedParts d.opened_squaresParts

/-- The parts of Alice's key for a rotation. -/
def rotatedParts (rotation : UInt64) : cc.Parts :=
  Context.switchParts (Context.rotated rotation.toNat d.alice) d.alice (d.sums rotation)

/-- The parts of the joint key for a rotation. -/
def sumParts (rotation : UInt64) : cc.Parts :=
  Context.joinedParts (d.rotatedParts rotation) (Context.rotated rotation.toNat d.bob) d.bob

/-- The key for a rotation opens to the rotated joint secret. -/
theorem opened_sumParts (rotation : UInt64) :
    Context.opened (d.alice + d.bob) (d.sumParts rotation) =
      Context.rotated rotation.toNat (d.alice + d.bob) := by
  rw [sumParts, Context.opened_joinedParts, rotatedParts, Context.opened_switchParts,
    Context.rotated_add]

/-- The parts of an encrypted input. -/
def inputParts (input : List Int64) (mask : cc.Slots) : cc.Parts :=
  Context.sealedParts d.keyParts (cc.slotsOf input) mask

/-- Each ciphertext opens to its input. -/
theorem opened_inputParts (input : List Int64) (mask : cc.Slots) :
    Context.opened (d.alice + d.bob) (d.inputParts input mask) = cc.slotsOf input :=
  Context.opened_sealedParts d.opened_keyParts _ _

/-- The parts of the evaluated ciphertext of an operation. -/
def resultParts : Operation → cc.Parts
  | .add => d.inputParts firstInput d.first + d.inputParts secondInput d.second +
      d.inputParts thirdInput d.third
  | .mult => Context.productParts (d.inputParts firstInput d.first)
      (d.inputParts thirdInput d.third) d.productParts
  | .sum => Context.summedParts d.sumParts cc.rotations (d.inputParts thirdInput d.third)

/-- The joint secret opens the evaluated ciphertext of an operation to what it gives. -/
theorem opened_resultParts (h : cc.IsValid) (operation : Operation) :
    Context.opened (d.alice + d.bob) (d.resultParts operation) = wanted cc operation := by
  cases operation with
  | add => simp only [resultParts, Context.opened_add, opened_inputParts, wanted]
  | mult =>
      rw [resultParts, Context.opened_productParts d.opened_productParts, opened_inputParts,
        opened_inputParts, wanted]
  | sum =>
      rw [resultParts, Context.opened_summedParts fun rotation _ => d.opened_sumParts rotation,
        opened_inputParts, Context.gathered_rotations h, wanted]

def aliceKeys : KeyPair := ⟨cc.publicKey d.leadParts, cc.privateKey d.alice⟩

/-- Bob's keys; his public key is the joint one. -/
def bobKeys : KeyPair := ⟨cc.publicKey d.keyParts, cc.privateKey d.bob⟩

def ciphertexts : List Ciphertext :=
  [cc.ciphertext (d.inputParts firstInput d.first),
    cc.ciphertext (d.inputParts secondInput d.second),
    cc.ciphertext (d.inputParts thirdInput d.third)]

def results : Results :=
  ⟨cc.ciphertext (d.resultParts .add), cc.ciphertext (d.resultParts .mult),
    cc.ciphertext (d.resultParts .sum)⟩

theorem get_results (operation : Operation) :
    d.results.get operation = cc.ciphertext (d.resultParts operation) := by
  cases operation <;> rfl

/-- Bob's share of the joint decryption of an operation. -/
def leadShare (operation : Operation) : Share :=
  cc.share (Context.opened d.bob (d.resultParts operation))

/-- Alice's share of the joint decryption of an operation. -/
def mainShare (operation : Operation) : Share :=
  cc.share ((d.resultParts operation).2 * d.alice)

@[simp]
def payload : ArtifactKind → Bytes
  | .rnd1PubKey => Artifact.encode (cc.publicKey d.leadParts)
  | .rnd1EvalMultKey => Artifact.encode (cc.switchKey d.squareParts)
  | .rnd1EvalSumKeys => Artifact.encode (cc.rotationKeys d.rotatedParts)
  | .rnd2SharedKey => Artifact.encode (cc.publicKey d.keyParts)
  | .rnd2EvalMultAB => Artifact.encode (cc.switchKey d.squaresParts)
  | .rnd2EvalMultBAB => Artifact.encode (cc.switchKey (Context.halfParts d.bob))
  | .rnd2EvalSumKeysJoin => Artifact.encode (cc.rotationKeys d.sumParts)
  | .rnd3EvalMultFinal => Artifact.encode (cc.switchKey d.productParts)
  | .ct1 => Artifact.encode (cc.ciphertext (d.inputParts firstInput d.first))
  | .ct2 => Artifact.encode (cc.ciphertext (d.inputParts secondInput d.second))
  | .ct3 => Artifact.encode (cc.ciphertext (d.inputParts thirdInput d.third))
  | .partialLead operation => Artifact.encode (d.leadShare operation)
  | .partialMain operation => Artifact.encode (d.mainShare operation)
  | _ => []

/-- What a party with these keys knows when it has all ciphertexts. -/
def supplied (keys : KeyPair) (jointKey : Option PublicKey) : Knowledge where
  context := some cc
  keys := some keys
  jointKey := jointKey
  multKey := some (cc.switchKey d.productParts)
  sumKeys := some (cc.rotationKeys d.sumParts)
  cts := d.ciphertexts

/-- What such a party knows when it has evaluated them and verified some operations. -/
def evaluated (keys : KeyPair) (jointKey : Option PublicKey) (verified : List Operation) :
    Knowledge :=
  { d.supplied keys jointKey with results := some d.results, verified }

variable {ρ : Type} (keys : KeyPair) (jointKey : Option PublicKey)

/-- Both parties evaluate the three operations with what they have been handed. -/
theorem evaluate_eq (h : cc.IsValid) (source : ρ) :
    Knowledge.evaluate (d.supplied keys jointKey, source) =
      .ok () (d.evaluated keys jointKey [], source) := by
  simp only [Knowledge.evaluate, supplied, ciphertexts, Action.data_bind, Action.require_some,
    pure_bind, h.evalAdd_eq_ok, h.evalMult_eq_ok, h.evalSum_eq_ok, Action.engine_ok]
  rfl

variable (operation : Operation) (verified : List Operation)

theorem resultFor_eq (source : ρ) :
    Knowledge.resultFor operation (d.evaluated keys jointKey verified, source) =
      .ok (cc.ciphertext (d.resultParts operation))
        (d.evaluated keys jointKey verified, source) := by
  simp only [Knowledge.resultFor, evaluated, Action.data_bind, Action.require_some, pure_bind,
    get_results]
  rfl

/-- What an operation should give confirms it. -/
theorem check_eq (h : cc.IsValid) (source : ρ) :
    Knowledge.check operation (cc.centered (wanted cc operation))
        (d.evaluated keys jointKey verified, source) =
      .ok () (d.evaluated keys jointKey (verified ++ [operation]), source) := by
  simp only [Knowledge.check, evaluated, supplied, Action.data_bind, Action.require_some,
    pure_bind, expected_eq_ok h, Action.compute_ok, if_pos]
  rfl

/-- The two shares of an operation fuse to what it should give. -/
theorem fuse_eq (h : cc.IsValid) :
    cc.fuse (d.leadShare operation) (d.mainShare operation) =
      .ok (cc.centered (wanted cc operation)) := by
  rw [leadShare, mainShare, h.fuse_eq_ok, opened_resultParts d h]

end Draws

end CipherRelay.Threshold
