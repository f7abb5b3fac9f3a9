import CipherRelay.Failure
import CipherRelay.Tag
/-!
The results that joint decryption should give. Both parties know the three input vectors, so each
can work out on its own what every operation should decrypt to, in plain arithmetic around zero.
-/
namespace CipherRelay.Threshold

/-- The first input. -/
def firstInput : List Int64 := [1, 2, 3, 4, 5, 6, 7, 8, 9, 10, 11, 12]

/-- The second input. -/
def secondInput : List Int64 := [1, 0, 0, 1, 1, 0, 0, 1, 1, 0, 0, 1]

/-- The third input. -/
def thirdInput : List Int64 := [2, 2, 3, 4, 5, 6, 7, 8, 9, 10, 11, 12]

/-- The three inputs. -/
def inputs : List (List Int64) := [firstInput, secondInput, thirdInput]

/-- The remainder of a whole number that lies around zero: above half the modulus, rounded toward
zero, it is moved down by the modulus. -/
def nearest (t : Int64) (v : Int) : Except Crash Int64 :=
  if t = 0 then .error .zeroModulus
  else
    let residue := v % t.toInt
    if t.toInt.tdiv 2 < residue then Word.signed (residue - t.toInt) else Word.signed residue

/-- The remainders of a vector over `slots` slots: cut off there, or followed by zeros. -/
def remainders (slots : Nat) (t : Int64) (values : List Int64) : Except Crash (List Int) := do
  let residues ← values.mapM fun v => Word.euclidean v t
  Word.reserve slots
  return (residues.map (·.toInt)).take slots ++ List.replicate (slots - values.length) 0

/-- What an operation should decrypt to over `slots` slots. The sum is one value in every slot. -/
def expected (operation : Operation) (slots : Nat) (modulus : UInt64) :
    Except Crash (List Int64) := do
  let t := modulus.toInt64
  let first ← remainders slots t firstInput
  let second ← remainders slots t secondInput
  let third ← remainders slots t thirdInput
  match operation with
  | .add => ((first.zip second).zip third).mapM fun ((x, y), z) => nearest t (x + y + z)
  | .mult => (first.zip third).mapM fun (x, z) => nearest t (x * z)
  | .sum => do
      let total ← nearest t (third.foldl (· + ·) 0)
      return List.replicate slots total

end CipherRelay.Threshold
