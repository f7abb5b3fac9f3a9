import CipherRelay.Bytes
/-!
Lexemes of JSON. A text is read byte by byte: the state says what is open, and a byte either
extends it or completes one or two lexemes. Strings keep the bytes between their quotes as they
are written, and numbers keep their digits; what they stand for is decided by whoever asks.
-/
namespace CipherRelay.Json

/-- A lexeme. -/
inductive Lexeme
  | openArray
  | closeArray
  | openObject
  | closeObject
  | comma
  | colon
  | null
  | bool (value : Bool)
  | number (text : Bytes)
  | string (raw : Bytes)
  deriving DecidableEq, Repr

/-- A decimal digit. -/
def isDigit (byte : UInt8) : Bool :=
  0x30 ≤ byte && byte ≤ 0x39

/-- A hexadecimal digit of either case. -/
def isHexDigit (byte : UInt8) : Bool :=
  isDigit byte || (0x61 ≤ byte && byte ≤ 0x66) || (0x41 ≤ byte && byte ≤ 0x46)

/-- What may follow the fraction of a number: an exponent with at least one digit, or nothing. -/
def isExponent : Bytes → Bool
  | [] => true
  | mark :: rest =>
      let digits := match rest with
        | 0x2b :: digits | 0x2d :: digits => digits
        | digits => digits
      (mark == 0x65 || mark == 0x45) && !digits.isEmpty && digits.all isDigit

/-- What may follow the whole part of a number: a fraction with at least one digit, or nothing, and
then an exponent. -/
def isFraction : Bytes → Bool
  | 0x2e :: first :: rest => isDigit first && isExponent (rest.dropWhile isDigit)
  | rest => isExponent rest

/-- The numbers of JSON: no plus sign, and no zero before another digit. -/
def isNumber (text : Bytes) : Bool :=
  match (match text with | 0x2d :: rest => rest | rest => rest) with
  | 0x30 :: rest => isFraction rest
  | first :: rest => isDigit first && isFraction (rest.dropWhile isDigit)
  | [] => false

/-- The lexeme of a word, a run of bytes without blanks, quotes and punctuation. -/
def Lexeme.ofWord? (word : Bytes) : Option Lexeme :=
  if word = [0x6e, 0x75, 0x6c, 0x6c] then some .null
  else if word = [0x74, 0x72, 0x75, 0x65] then some (.bool true)
  else if word = [0x66, 0x61, 0x6c, 0x73, 0x65] then some (.bool false)
  else if isNumber word then some (.number word)
  else none

/-- What a byte is between lexemes. -/
inductive ByteClass
  | blank
  | mark (lexeme : Lexeme)
  | quote
  | letter
  deriving DecidableEq, Repr

/-- The class of a byte. The blanks are the space, the tabulator and the two line ends. -/
def ByteClass.of (byte : UInt8) : ByteClass :=
  match byte with
  | 0x20 | 0x09 | 0x0a | 0x0d => .blank
  | 0x5b => .mark .openArray
  | 0x5d => .mark .closeArray
  | 0x7b => .mark .openObject
  | 0x7d => .mark .closeObject
  | 0x2c => .mark .comma
  | 0x3a => .mark .colon
  | 0x22 => .quote
  | _ => .letter

/-- What is open between two bytes. The bytes of an open lexeme are held latest first. -/
inductive Scanner
  | between
  | word (seen : Bytes)
  | quoted (seen : Bytes)
  | escape (seen : Bytes)
  | unicode (digits : Nat) (seen : Bytes)
  deriving DecidableEq, Repr

namespace Scanner

/-- The first byte after a lexeme or a blank. -/
def enter (byte : UInt8) : Scanner × List Lexeme :=
  match ByteClass.of byte with
  | .blank => (.between, [])
  | .mark lexeme => (.between, [lexeme])
  | .quote => (.quoted [], [])
  | .letter => (.word [byte], [])

/-- One byte. Inside a string a control byte is refused, and so is an escape that is neither a
letter of the fixed set nor a `u` with four hexadecimal digits. -/
def next? (scanner : Scanner) (byte : UInt8) : Option (Scanner × List Lexeme) :=
  match scanner with
  | .between => some (enter byte)
  | .word seen =>
      if ByteClass.of byte = .letter then some (.word (byte :: seen), [])
      else do
        let lexeme ← Lexeme.ofWord? seen.reverse
        let (scanner, lexemes) := enter byte
        return (scanner, lexeme :: lexemes)
  | .quoted seen =>
      if byte = 0x22 then some (.between, [.string seen.reverse])
      else if byte = 0x5c then some (.escape (byte :: seen), [])
      else if byte < 0x20 then none
      else some (.quoted (byte :: seen), [])
  | .escape seen =>
      if byte = 0x75 then some (.unicode 3 (byte :: seen), [])
      else if byte ∈ [0x22, 0x5c, 0x2f, 0x62, 0x66, 0x6e, 0x72, 0x74] then
        some (.quoted (byte :: seen), [])
      else none
  | .unicode left seen =>
      if !isHexDigit byte then none
      else match left with
        | 0 => some (.quoted (byte :: seen), [])
        | left + 1 => some (.unicode left (byte :: seen), [])

/-- The end of the text. A string must have been closed. -/
def finish? : Scanner → Option (List Lexeme)
  | .between => some []
  | .word seen => (Lexeme.ofWord? seen.reverse).map ([·])
  | _ => none

/-- Scans a text; `found` holds the lexemes before it, latest first. -/
def scan (found : List Lexeme) (scanner : Scanner) : Bytes → Option (List Lexeme)
  | [] => scanner.finish?.map fun lexemes => found.reverse ++ lexemes
  | byte :: rest =>
      match scanner.next? byte with
      | none => none
      | some (scanner, lexemes) => scan (lexemes.reverse ++ found) scanner rest

end Scanner

/-- The lexemes of a text, if it consists of lexemes and blanks. -/
def lexemes? (text : Bytes) : Option (List Lexeme) :=
  Scanner.scan [] .between text

/-- The written form of a lexeme. -/
def Lexeme.render : Lexeme → Bytes
  | .openArray => [0x5b]
  | .closeArray => [0x5d]
  | .openObject => [0x7b]
  | .closeObject => [0x7d]
  | .comma => [0x2c]
  | .colon => [0x3a]
  | .null => [0x6e, 0x75, 0x6c, 0x6c]
  | .bool true => [0x74, 0x72, 0x75, 0x65]
  | .bool false => [0x66, 0x61, 0x6c, 0x73, 0x65]
  | .number text => text
  | .string raw => 0x22 :: raw ++ [0x22]

end CipherRelay.Json
