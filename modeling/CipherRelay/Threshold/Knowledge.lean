import CipherRelay.Party.Machine
import CipherRelay.Scheme.Evaluation
import CipherRelay.Threshold.Expected
/-!
What Alice and Bob know during a threshold run. Both roles share one type of data and each fills in
the pieces it needs: the keys of the three rounds, the three ciphertexts, the evaluated results, and
the operations whose joint decryption gave what it should.
-/
namespace CipherRelay.Threshold

open Party Scheme

/-- The evaluated ciphertext of each operation. -/
structure Results where
  add : Ciphertext
  mult : Ciphertext
  sum : Ciphertext
  deriving DecidableEq, Repr

/-- The evaluated ciphertext of an operation. -/
def Results.get (results : Results) : Operation → Ciphertext
  | .add => results.add
  | .mult => results.mult
  | .sum => results.sum

/-- What a party of a threshold run knows. -/
structure Knowledge where
  context : Option Context := none
  keys : Option KeyPair := none
  /-- The product key of round 1, kept until round 2 has used it. -/
  multRnd1 : Option SwitchKey := none
  /-- The sum keys of round 1, kept until round 2 has used them. -/
  sumRnd1 : Option RotationKeys := none
  /-- Bob's public key, which belongs to both secrets. -/
  jointKey : Option PublicKey := none
  /-- The product key of round 2, kept until round 3 has used it. -/
  multAB : Option SwitchKey := none
  multKey : Option SwitchKey := none
  sumKeys : Option RotationKeys := none
  cts : List Ciphertext := []
  results : Option Results := none
  /-- The operations whose joint decryption was as expected, in the order of the checks. -/
  verified : List Operation := []
  /-- Whether no joint decryption has been found wrong. -/
  unrefuted : Bool := true

namespace Knowledge

variable {ρ : Type}

/-- A party passes once all operations have been verified and none has been found wrong. -/
def passed (known : Knowledge) : Bool :=
  known.unrefuted && known.verified.length == Operation.all.length

/-- Evaluates the sum of the three ciphertexts, the product of the first and the third, and the sum
of all slots of the third. -/
def evaluate : Action Knowledge ρ Unit := do
  let known ← .data
  let cc ← .require "crypto context" known.context
  let multKey ← .require "evaluation mult key" known.multKey
  let sumKeys ← .require "evaluation sum keys" known.sumKeys
  match known.cts with
  | [ct1, ct2, ct3] => do
      let both ← .engine (cc.evalAdd ct1 ct2)
      let add ← .engine (cc.evalAdd both ct3)
      let mult ← .engine (cc.evalMult ct1 ct3 multKey)
      let sum ← .engine (cc.evalSum ct3 sumKeys)
      .change fun known => { known with results := some ⟨add, mult, sum⟩ }
  | _ => .fail (.missingLocalState "ciphertexts CT1 to CT3")

/-- The evaluated ciphertext of an operation. -/
def resultFor (operation : Operation) : Action Knowledge ρ Ciphertext := do
  let known ← .data
  let results ← .require "evaluated results" known.results
  return results.get operation

/-- Compares a joint decryption with what the operation should give. A mismatch ends the pass for
good. -/
def check (operation : Operation) (fused : List Int64) : Action Knowledge ρ Unit := do
  let known ← .data
  let cc ← .require "crypto context" known.context
  let expected ← .compute (expected operation cc.ringDimension.toNat cc.plaintextModulus)
  if fused = expected then
    .change fun known => { known with verified := known.verified ++ [operation] }
  else .change fun known => { known with unrefuted := false }

/-- The operation that a tag talks about. -/
def operationOf (tag : Tag) : Action Knowledge ρ Operation :=
  match tag.artifact?.bind ArtifactKind.operation? with
  | some operation => pure operation
  | none => .fail (.unexpectedTag tag.text)

end Knowledge

end CipherRelay.Threshold
