import CipherRelay.Json.Basic
/-!
Whole numbers in JSON. A whole number is written as its digits, with a minus sign where it is
negative, and it is read in this form only: a fraction, an exponent or a negative zero is no whole
number, whatever its value.
-/
namespace CipherRelay.Json

/-- The decimal digits of a number, most significant first. -/
def digits (n : Nat) : Bytes :=
  if n < 10 then [n.toUInt8 + 0x30] else digits (n / 10) ++ [(n % 10).toUInt8 + 0x30]

/-- Reads digits after those worth `value`. -/
def readDigits (value : Nat) : Bytes → Option Nat
  | [] => some value
  | byte :: rest =>
      if isDigit byte then readDigits (10 * value + (byte.toNat - 0x30)) rest else none

/-- The number these digits stand for, if they are its written form. -/
def natural? : Bytes → Option Nat
  | [] => none
  | [0x30] => some 0
  | 0x30 :: _ => none
  | text => readDigits 0 text

/-- The whole number this text stands for, if it is its written form. -/
def integer? : Bytes → Option Int
  | 0x2d :: text =>
      match natural? text with
      | some (n + 1) => some (Int.negSucc n)
      | _ => none
  | text => (natural? text).map Int.ofNat

/-- The value that holds a number. -/
def ofNat (n : Nat) : Json :=
  .number (digits n)

/-- The value that holds a whole number. -/
def ofInt : Int → Json
  | .ofNat n => .number (digits n)
  | .negSucc n => .number (0x2d :: digits (n + 1))

/-- The number below `bound` that a value holds. -/
def below? (bound : Nat) : Json → Option Nat
  | .number text => (natural? text).filter (· < bound)
  | _ => none

/-- The whole number that a value holds, from `least` to `greatest`. -/
def between? (least greatest : Int) : Json → Option Int
  | .number text => (integer? text).filter fun v => least ≤ v ∧ v ≤ greatest
  | _ => none

end CipherRelay.Json
