/-!
Decimal numerals. A number is written with the fewest digits. A numeral that a person has typed may
start with a plus sign and with zeros, and it is read only if its value fits the field it is for.
-/
namespace CipherRelay.Text

/-- The written form of a number. -/
def decimal (n : Nat) : String :=
  Nat.repr n

/-- The value of a decimal digit. -/
def digit? (c : Char) : Option Nat :=
  if '0' ≤ c ∧ c ≤ '9' then some (c.toNat - 48) else none

/-- Why a text is no numeral. -/
inductive NumeralError
  | empty
  | invalidDigit
  | tooLarge
  deriving DecidableEq, Repr

namespace NumeralError

/-- The wording of the cause. -/
def message : NumeralError → String
  | .empty => "cannot parse integer from empty string"
  | .invalidDigit => "invalid digit found in string"
  | .tooLarge => "number too large to fit in target type"

end NumeralError

/-- Reads digits after those worth `value`, and stops at the first character that is no digit or
that takes the value beyond `limit`. -/
def readDigits (limit value : Nat) : List Char → Except NumeralError Nat
  | [] => .ok value
  | c :: rest =>
      match digit? c with
      | none => .error .invalidDigit
      | some d =>
          if limit < 10 * value + d then .error .tooLarge
          else readDigits limit (10 * value + d) rest

/-- Reads a numeral of at most `limit`, with or without a plus sign. A sign alone is no numeral,
and a minus sign is no digit. -/
def readNumeral (limit : Nat) : List Char → Except NumeralError Nat
  | [] => .error .empty
  | '+' :: rest => if rest.isEmpty then .error .invalidDigit else readDigits limit 0 rest
  | text => readDigits limit 0 text

end CipherRelay.Text
