import CipherRelay.Failure
/-!
Plaintext vectors of the handoff. A producer packs values below a bound that the modulus has to
exceed. Decrypted values lie around zero; a negative one stands for the value one modulus higher.
-/
namespace CipherRelay.Handoff

/-- The bound below which random values are drawn. -/
def packingBound : UInt64 := 65536

/-- Moves negative values up by the modulus, which is read as a signed word. -/
def wrap (values : List Int64) (modulus : UInt64) : Except Crash (List Int64) :=
  values.mapM fun v =>
    if v < 0 then Word.signed (v.toInt + modulus.toInt64.toInt) else .ok v

end CipherRelay.Handoff
