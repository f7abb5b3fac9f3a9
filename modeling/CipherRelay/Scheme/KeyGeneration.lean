import CipherRelay.Scheme.Keys
/-!
Key generation. One party makes a key pair; a second party makes its own on top of the first one's
public key, and the sum of the two secrets is then the joint secret. The keys for products and sums
under the joint secret are made in rounds, in which each party adds what only its secret can add.
-/
namespace CipherRelay.Scheme

variable {ρ : Type} [RandomSource ρ]

namespace Context

/-- A ciphertext has two well-formed parts. -/
def checkCiphertext (cc : Context) (ct : Ciphertext) : Except EngineError Unit := do
  cc.check ct.c0
  cc.check ct.c1

/-- A switching key has two well-formed parts. -/
def checkKey (cc : Context) (key : SwitchKey) : Except EngineError Unit := do
  cc.check key.alpha
  cc.check key.beta

/-- A public key has two well-formed parts. -/
def checkPublic (cc : Context) (key : PublicKey) : Except EngineError Unit := do
  cc.check key.p0
  cc.check key.p1

/-- A fresh key pair. The secret is drawn before the mask of the public key. -/
def keyGen (cc : Context) : Draw ρ EngineError KeyPair := do
  let s ← cc.sample
  let u ← cc.sample
  let masked ← cc.mul u s
  let p0 ← cc.neg masked
  return ⟨⟨p0, u⟩, ⟨s⟩⟩

/-- A second party's key pair on top of the first party's public key. Its public key belongs to the
sum of both secrets. -/
def jointKeyGen (cc : Context) (lead : PublicKey) : Draw ρ EngineError KeyPair := do
  cc.checkPublic lead
  let s ← cc.sample
  let own ← cc.mul lead.p1 s
  let p0 ← cc.sub lead.p0 own
  return ⟨⟨p0, lead.p1⟩, ⟨s⟩⟩

/-- A key that switches from one secret to the owner of a public key. -/
def reKeyGen (cc : Context) (source : PrivateKey) (target : PublicKey) :
    Draw ρ EngineError SwitchKey := do
  cc.check source.s
  cc.checkPublic target
  let r ← cc.sample
  let masked ← cc.mul r target.p0
  let alpha ← cc.add source.s masked
  let beta ← cc.mul r target.p1
  return ⟨alpha, beta⟩

/-- The first round of a product key: it switches from the square of the secret. -/
def productKey (cc : Context) (key : PrivateKey) : Draw ρ EngineError SwitchKey := do
  let beta ← cc.sample
  let square ← cc.mul key.s key.s
  let masked ← cc.mul beta key.s
  let alpha ← cc.sub square masked
  return ⟨alpha, beta⟩

/-- The second round of a product key: the second party adds the square of its secret. -/
def productKeyAB (cc : Context) (key : PrivateKey) (first : SwitchKey) : Outcome SwitchKey := do
  cc.check key.s
  cc.checkKey first
  let square ← cc.mul key.s key.s
  let masked ← cc.mul first.beta key.s
  let own ← cc.sub square masked
  let alpha ← cc.add first.alpha own
  return ⟨alpha, first.beta⟩

/-- The second party's half of the mixed term, twice the product of both secrets. The first party
completes it. -/
def productKeyBAB (cc : Context) (key : PrivateKey) (ab : SwitchKey) : Outcome SwitchKey := do
  cc.check key.s
  cc.checkKey ab
  let alpha ← cc.zeros
  let beta ← cc.add key.s key.s
  return ⟨alpha, beta⟩

/-- The third round of a product key: the first party adds the mixed term. -/
def productKeyFinal (cc : Context) (key : PrivateKey) (ab bab : SwitchKey) :
    Outcome SwitchKey := do
  cc.check key.s
  cc.checkKey ab
  cc.checkKey bab
  let mixed ← cc.mul bab.beta key.s
  let cross ← cc.add mixed bab.alpha
  let alpha ← cc.add ab.alpha cross
  return ⟨alpha, ab.beta⟩

/-- The key for one rotation: it switches from the secret rotated to the left. -/
def rotationKey (cc : Context) (key : PrivateKey) (rotation : UInt64) :
    Draw ρ EngineError (UInt64 × SwitchKey) := do
  let beta ← cc.sample
  let masked ← cc.mul beta key.s
  let alpha ← cc.sub (key.s.rotateLeft rotation.toNat) masked
  return (rotation, ⟨alpha, beta⟩)

/-- The first round of the sum keys, one key for each rotation. -/
def sumKeys (cc : Context) (key : PrivateKey) : Draw ρ EngineError RotationKeys := do
  let entries ← cc.rotations.mapM (cc.rotationKey key)
  return .ofList entries

/-- The well-formed key for a rotation. -/
def requireKey (cc : Context) (keys : RotationKeys) (rotation : UInt64) :
    Except EngineError SwitchKey :=
  match keys.get? rotation with
  | none => .error (.missingSumKey rotation)
  | some key => do
      cc.checkKey key
      return key

/-- The second round of the sum keys: the second party adds its rotated secret to each of them. -/
def sumKeysJoin (cc : Context) (key : PrivateKey) (first : RotationKeys) :
    Outcome RotationKeys := do
  cc.check key.s
  let entries ← cc.rotations.mapM fun rotation => do
    let known ← cc.requireKey first rotation
    let masked ← cc.mul known.beta key.s
    let own ← cc.sub (key.s.rotateLeft rotation.toNat) masked
    let alpha ← cc.add known.alpha own
    return (rotation, (⟨alpha, known.beta⟩ : SwitchKey))
  return .ofList entries

end Context

end CipherRelay.Scheme
