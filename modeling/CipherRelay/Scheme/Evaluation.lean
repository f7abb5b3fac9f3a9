import CipherRelay.Scheme.KeyGeneration
/-!
Encryption, decryption and everything that is computed on ciphertexts. Every operation checks all of
its operands before it computes anything, in the order in which they are given.
-/
namespace CipherRelay.Scheme

variable {ρ : Type} [RandomSource ρ]

namespace Context

/-- Encrypts a list of values, one in each slot from the first on. -/
def encrypt (cc : Context) (key : PublicKey) (values : List Int64) :
    Draw ρ EngineError Ciphertext := do
  cc.checkPublic key
  let m ← cc.encodeValues values
  let r ← cc.sample
  let masked ← cc.mul r key.p0
  let c0 ← cc.add m masked
  let c1 ← cc.mul r key.p1
  return ⟨c0, c1⟩

/-- Decrypts to values around zero. -/
def decrypt (cc : Context) (key : PrivateKey) (ct : Ciphertext) : Outcome (List Int64) := do
  cc.check key.s
  cc.checkCiphertext ct
  let masked ← cc.mul ct.c1 key.s
  let plain ← cc.add ct.c0 masked
  cc.center plain

/-- Switches the second part of a ciphertext to another secret and adds the first part. -/
def switch (cc : Context) (c0 c1 : Residues) (key : SwitchKey) : Except Crash Ciphertext := do
  let switched ← cc.mul c1 key.alpha
  let d0 ← cc.add c0 switched
  let d1 ← cc.mul c1 key.beta
  return ⟨d0, d1⟩

/-- Hands a ciphertext over to the secret that a key switches to. -/
def reEncrypt (cc : Context) (ct : Ciphertext) (key : SwitchKey) : Outcome Ciphertext := do
  cc.checkCiphertext ct
  cc.checkKey key
  cc.switch ct.c0 ct.c1 key

/-- The sum of two ciphertexts, slot by slot. -/
def evalAdd (cc : Context) (a b : Ciphertext) : Outcome Ciphertext := do
  cc.checkCiphertext a
  cc.checkCiphertext b
  let c0 ← cc.add a.c0 b.c0
  let c1 ← cc.add a.c1 b.c1
  return ⟨c0, c1⟩

/-- The product of two ciphertexts, slot by slot. The part that belongs to the square of the secret
is folded back with the product key. -/
def evalMult (cc : Context) (a b : Ciphertext) (key : SwitchKey) : Outcome Ciphertext := do
  cc.checkCiphertext a
  cc.checkCiphertext b
  cc.checkKey key
  let e0 ← cc.mul a.c0 b.c0
  let left ← cc.mul a.c0 b.c1
  let right ← cc.mul a.c1 b.c0
  let e1 ← cc.add left right
  let e2 ← cc.mul a.c1 b.c1
  let folded0 ← cc.mul e2 key.alpha
  let c0 ← cc.add e0 folded0
  let folded1 ← cc.mul e2 key.beta
  let c1 ← cc.add e1 folded1
  return ⟨c0, c1⟩

/-- Adds to a ciphertext what it becomes when its slots are rotated to the left. -/
def addRotated (cc : Context) (keys : RotationKeys) (ct : Ciphertext) (rotation : UInt64) :
    Outcome Ciphertext := do
  let key ← cc.requireKey keys rotation
  let rotated ←
    cc.switch (ct.c0.rotateLeft rotation.toNat) (ct.c1.rotateLeft rotation.toNat) key
  let c0 ← cc.add ct.c0 rotated.c0
  let c1 ← cc.add ct.c1 rotated.c1
  return ⟨c0, c1⟩

/-- The sum of all slots, in every slot. -/
def evalSum (cc : Context) (ct : Ciphertext) (keys : RotationKeys) : Outcome Ciphertext := do
  cc.checkCiphertext ct
  cc.rotations.foldlM (cc.addRotated keys) ct

/-- The share of the party that also adds the first part of the ciphertext. -/
def leadShare (cc : Context) (key : PrivateKey) (ct : Ciphertext) : Outcome Share := do
  cc.check key.s
  cc.checkCiphertext ct
  let masked ← cc.mul ct.c1 key.s
  let share ← cc.add ct.c0 masked
  return ⟨share⟩

/-- The share of the other party. -/
def mainShare (cc : Context) (key : PrivateKey) (ct : Ciphertext) : Outcome Share := do
  cc.check key.s
  cc.checkCiphertext ct
  let share ← cc.mul ct.c1 key.s
  return ⟨share⟩

/-- The values around zero that two shares add up to. -/
def fuse (cc : Context) (lead main : Share) : Outcome (List Int64) := do
  cc.check lead.share
  cc.check main.share
  let plain ← cc.add lead.share main.share
  cc.center plain

end Context

end CipherRelay.Scheme
