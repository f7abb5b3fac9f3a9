/-!
Byte strings. Payloads, frames and session identifiers are lists of bytes. A word is laid out with
its least significant byte first inside a frame and with its most significant byte first in the
header of a frame.
-/
namespace CipherRelay

/-- A byte string. -/
abbrev Bytes := List UInt8

namespace Bytes

/-- The `count` low bytes of `value`, least significant first. -/
def littleEndian : Nat → Nat → Bytes
  | 0, _ => []
  | count + 1, value => value.toUInt8 :: littleEndian count (value / 256)

/-- The number whose bytes these are, least significant first. -/
def ofLittleEndian : Bytes → Nat
  | [] => 0
  | byte :: rest => byte.toNat + 256 * ofLittleEndian rest

/-- The `count` low bytes of `value`, most significant first. -/
def bigEndian (count value : Nat) : Bytes :=
  (littleEndian count value).reverse

/-- The number whose bytes these are, most significant first. -/
def ofBigEndian (bytes : Bytes) : Nat :=
  ofLittleEndian bytes.reverse

/-- A word takes as many bytes as it is given. -/
theorem length_littleEndian (count value : Nat) : (littleEndian count value).length = count := by
  induction count generalizing value with
  | zero => rfl
  | succ count ih => simp [littleEndian, ih]

/-- A byte as its two hexadecimal digits. -/
def hexPair (byte : UInt8) : List Char :=
  let digit (n : Nat) : Char := if n < 10 then Char.ofNat (48 + n) else Char.ofNat (87 + n)
  [digit (byte.toNat / 16), digit (byte.toNat % 16)]

/-- The text of a byte string with two lower case hexadecimal digits a byte. -/
def hex (bytes : Bytes) : String :=
  String.ofList (bytes.flatMap hexPair)

/-- The value of a hexadecimal digit of either case. -/
def hexDigit? (c : Char) : Option Nat :=
  if '0' ≤ c ∧ c ≤ '9' then some (c.toNat - 48)
  else if 'a' ≤ c ∧ c ≤ 'f' then some (c.toNat - 87)
  else if 'A' ≤ c ∧ c ≤ 'F' then some (c.toNat - 55)
  else none

/-- Reads pairs of hexadecimal digits; `done` holds the bytes already read, latest first. -/
def readHex (done : Bytes) : List Char → Option Bytes
  | [] => some done.reverse
  | high :: low :: rest => do
      let high ← hexDigit? high
      let low ← hexDigit? low
      readHex ((16 * high + low).toUInt8 :: done) rest
  | [_] => none

/-- The bytes a text of hexadecimal digit pairs stands for. -/
def ofHex? (text : String) : Option Bytes :=
  readHex [] text.toList

/-- The bytes of a text in UTF-8. -/
def ofText (text : String) : Bytes :=
  text.toUTF8.data.toList

/-- The text whose UTF-8 form these bytes are. -/
def toText? (bytes : Bytes) : Option String :=
  String.fromUTF8? bytes.toByteArray

end Bytes

end CipherRelay
