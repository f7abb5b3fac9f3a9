import CipherRelay.Json.Basic
/-!
Texts in JSON. A string holds a text in UTF-8, with quotes, backslashes and control characters
escaped. An escape may also name a UTF-16 unit; a unit that is half of a pair stands for a character
only together with its other half, so a string with a lone half holds no text.
-/
namespace CipherRelay.Json

/-- The four hexadecimal digits of a control character. -/
def controlDigits (c : Char) : List Char :=
  '0' :: '0' :: Bytes.hexPair c.toNat.toUInt8

/-- How one character is written inside a string. -/
def escapeChar (c : Char) : List Char :=
  if c = '"' then ['\\', '"']
  else if c = '\\' then ['\\', '\\']
  else if c.toNat = 8 then ['\\', 'b']
  else if c.toNat = 9 then ['\\', 't']
  else if c.toNat = 10 then ['\\', 'n']
  else if c.toNat = 12 then ['\\', 'f']
  else if c.toNat = 13 then ['\\', 'r']
  else if c.toNat < 32 then '\\' :: 'u' :: controlDigits c
  else [c]

/-- The character of an escape with one letter. -/
def unescapeLetter? : Char → Option Char
  | '"' => some '"'
  | '\\' => some '\\'
  | '/' => some '/'
  | 'b' => some (Char.ofNat 8)
  | 'f' => some (Char.ofNat 12)
  | 'n' => some (Char.ofNat 10)
  | 'r' => some (Char.ofNat 13)
  | 't' => some (Char.ofNat 9)
  | _ => none

/-- The UTF-16 unit of four hexadecimal digits. -/
def unit? (a b c d : Char) : Option Nat := do
  let a ← Bytes.hexDigit? a
  let b ← Bytes.hexDigit? b
  let c ← Bytes.hexDigit? c
  let d ← Bytes.hexDigit? d
  return ((a * 16 + b) * 16 + c) * 16 + d

/-- What an unescaping has read so far: nothing open, or the first half of a pair. -/
inductive Half
  | none
  | first (unit : Nat)

/-- Resolves the escapes of a string; `done` holds the characters before it, latest first. -/
def unescape (done : List Char) (half : Half) : List Char → Option (List Char)
  | '\\' :: 'u' :: a :: b :: c :: d :: rest =>
      match unit? a b c d, half with
      | some unit, .none =>
          if 0xd800 ≤ unit ∧ unit < 0xdc00 then unescape done (.first unit) rest
          else if 0xdc00 ≤ unit ∧ unit < 0xe000 then none
          else unescape (Char.ofNat unit :: done) .none rest
      | some unit, .first high =>
          if 0xdc00 ≤ unit ∧ unit < 0xe000 then
            unescape (Char.ofNat (0x10000 + (high - 0xd800) * 0x400 + (unit - 0xdc00)) :: done)
              .none rest
          else none
      | none, _ => none
  | '\\' :: letter :: rest =>
      match unescapeLetter? letter, half with
      | some c, .none => unescape (c :: done) .none rest
      | _, _ => none
  | '\\' :: [] => none
  | c :: rest =>
      match half with
      | .none => unescape (c :: done) .none rest
      | .first _ => none
  | [] =>
      match half with
      | .none => some done.reverse
      | .first _ => none

/-- The bytes that a text has between the quotes of a string. -/
def escape (text : String) : Bytes :=
  Bytes.ofText (String.ofList (text.toList.flatMap escapeChar))

/-- The text that the bytes between two quotes stand for. -/
def unescape? (raw : Bytes) : Option String := do
  let written ← Bytes.toText? raw
  let text ← unescape [] .none written.toList
  return String.ofList text

/-- The string that holds a text. -/
def ofText (text : String) : Json :=
  .string (escape text)

/-- The text of a string. -/
def text? : Json → Option String
  | .string raw => unescape? raw
  | _ => none

end CipherRelay.Json
