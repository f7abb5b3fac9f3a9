import CipherRelay.Random
import CipherRelay.Scheme.Context
/-!
Vectors of residues. All objects of the scheme are vectors with one entry for each slot, and all
arithmetic is done slot by slot modulo the plaintext modulus. On vectors that pass `check` in a
context from `Context.generate` every operation below has a result; elsewhere a word may overflow,
the modulus may be zero, or there may be no memory for as many entries as there are slots, and then
it crashes.
-/
namespace CipherRelay.Scheme

/-- A vector of residues. -/
abbrev Residues := List UInt64

namespace Context

variable {ρ ε : Type}

/-- Whether memory can hold a vector with one entry for each slot. -/
def HasRoom (cc : Context) : Prop :=
  cc.ringDimension.toNat ≤ Word.capacity

instance (cc : Context) : Decidable cc.HasRoom :=
  inferInstanceAs (Decidable (_ ≤ _))

/-- Whether a vector has one entry for each slot. Without room no vector has, and a list with as
many entries stands for none. -/
def Spans (cc : Context) (v : Residues) : Prop :=
  cc.HasRoom ∧ v.length = cc.ringDimension.toNat

instance (cc : Context) (v : Residues) : Decidable (cc.Spans v) :=
  inferInstanceAs (Decidable (_ ∧ _))

/-- A vector must have one entry for each slot, and every entry must be below the modulus. The
length is looked at first, and then the first entry that is too large. -/
def check (cc : Context) (v : Residues) : Except EngineError Unit :=
  if ¬cc.Spans v then
    .error (.dimensionMismatch cc.ringDimension v.length.toUInt64)
  else
    match v.find? (cc.plaintextModulus ≤ ·) with
    | some x => .error (.residueOutOfRange x cc.plaintextModulus)
    | none => .ok ()

/-- Combines two vectors slot by slot, up to the end of the shorter one. -/
def zip (f : UInt64 → UInt64 → Except Crash UInt64) (a b : Residues) : Except Crash Residues :=
  (a.zip b).mapM fun (x, y) => f x y

/-- The sum of two vectors. -/
def add (cc : Context) : Residues → Residues → Except Crash Residues :=
  zip fun x y => do Word.mod (← Word.add x y) cc.plaintextModulus

/-- The difference of two vectors. -/
def sub (cc : Context) : Residues → Residues → Except Crash Residues :=
  zip fun x y => do
    Word.mod (← Word.sub (← Word.add x cc.plaintextModulus) y) cc.plaintextModulus

/-- The product of two vectors. The product of two words is taken in full before the remainder. -/
def mul (cc : Context) : Residues → Residues → Except Crash Residues :=
  zip fun x y =>
    if cc.plaintextModulus = 0 then .error .zeroModulus
    else .ok ((x.toNat * y.toNat) % cc.plaintextModulus.toNat).toUInt64

/-- The negative of a vector. -/
def neg (cc : Context) (a : Residues) : Except Crash Residues :=
  a.mapM fun x => do Word.mod (← Word.sub cc.plaintextModulus x) cc.plaintextModulus

/-- A vector of zeros, one for each slot. -/
def zeros (cc : Context) : Except Crash Residues := do
  Word.reserve cc.ringDimension.toNat
  return List.replicate cc.ringDimension.toNat 0

/-- A vector of random residues, one for each slot. -/
def sample [RandomSource ρ] (cc : Context) : Draw ρ ε Residues :=
  Draw.vector cc.ringDimension.toNat cc.plaintextModulus

/-- The residues of a list of values, followed by zeros. The modulus is read as a signed word. -/
def encodeValues (cc : Context) (values : List Int64) : Outcome Residues :=
  if cc.ringDimension.toNat < values.length then
    .error (.error (.dimensionMismatch cc.ringDimension values.length.toUInt64))
  else do
    let encoded ← values.mapM fun v => do
      let residue ← Word.euclidean v cc.plaintextModulus.toInt64
      return residue.toUInt64
    Word.reserve cc.ringDimension.toNat
    return encoded ++ List.replicate (cc.ringDimension.toNat - values.length) 0

/-- The representatives around zero: an entry above half the modulus stands for a negative value.
Both words are read as signed. -/
def center (cc : Context) (v : Residues) : Except Crash (List Int64) :=
  v.mapM fun x =>
    if cc.plaintextModulus / 2 < x then
      Word.signed (x.toInt64.toInt - cc.plaintextModulus.toInt64.toInt)
    else .ok x.toInt64

end Context

/-- The powers of two below `bound` from `k` on, at most `count` of them. -/
def doublings (bound : Nat) : Nat → Nat → List UInt64
  | _, 0 => []
  | k, count + 1 => if k < bound then k.toUInt64 :: doublings bound (2 * k) count else []

/-- The rotations that a total sum needs: 1, 2, 4, and so on below the ring dimension. -/
def Context.rotations (cc : Context) : List UInt64 :=
  doublings cc.ringDimension.toNat 1 64

end CipherRelay.Scheme
