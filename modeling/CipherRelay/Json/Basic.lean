import CipherRelay.Json.Lexeme
/-!
JSON values. A value is written as the row of its lexemes without blanks. It is read by a machine
that keeps the open arrays and objects on a stack and knows what may come next, so a value may nest
to any depth.
-/
namespace CipherRelay

/-- A JSON value. Numbers and strings keep the form in which they are written. -/
inductive Json
  | null
  | bool (value : Bool)
  | number (text : Bytes)
  | string (raw : Bytes)
  | array (items : List Json)
  | object (members : List (Bytes × Json))
  deriving Inhabited

namespace Json

mutual

/-- The lexemes of a value. -/
def lexemes : Json → List Lexeme
  | .null => [.null]
  | .bool value => [.bool value]
  | .number text => [.number text]
  | .string raw => [.string raw]
  | .array items => .openArray :: itemLexemes items ++ [.closeArray]
  | .object members => .openObject :: memberLexemes members ++ [.closeObject]

/-- The lexemes of the items of an array, with commas between them. -/
def itemLexemes : List Json → List Lexeme
  | [] => []
  | [item] => lexemes item
  | item :: rest => lexemes item ++ .comma :: itemLexemes rest

/-- The lexemes of the members of an object, with commas between them. -/
def memberLexemes : List (Bytes × Json) → List Lexeme
  | [] => []
  | [(key, value)] => .string key :: .colon :: lexemes value
  | (key, value) :: rest => .string key :: .colon :: lexemes value ++ .comma :: memberLexemes rest

end

/-- The written form of a value, without blanks. -/
def render (value : Json) : Bytes :=
  value.lexemes.flatMap Lexeme.render

/-- An array or object that is still open around a value; its earlier parts are held latest first,
and an object also holds the key whose value is being read. -/
inductive Container
  | array (done : List Json)
  | object (done : List (Bytes × Json)) (key : Bytes)

/-- What may come next. -/
inductive Reader
  /-- A value. -/
  | expectValue (stack : List Container)
  /-- The first item of an array, or its end. -/
  | firstItem (stack : List Container)
  /-- A comma or the end of an array. -/
  | afterItem (done : List Json) (stack : List Container)
  /-- The first key of an object, or its end. -/
  | firstKey (stack : List Container)
  /-- A key. -/
  | expectKey (done : List (Bytes × Json)) (stack : List Container)
  /-- The colon after a key. -/
  | afterKey (done : List (Bytes × Json)) (key : Bytes) (stack : List Container)
  /-- A comma or the end of an object. -/
  | afterMember (done : List (Bytes × Json)) (stack : List Container)
  /-- Nothing: the value is complete. -/
  | finished (value : Json)

namespace Reader

/-- A value has been read inside the given containers. -/
def complete (value : Json) : List Container → Reader
  | [] => .finished value
  | .array done :: stack => .afterItem (value :: done) stack
  | .object done key :: stack => .afterMember ((key, value) :: done) stack

/-- The first lexeme of a value. -/
def begin? (stack : List Container) : Lexeme → Option Reader
  | .null => some (complete .null stack)
  | .bool value => some (complete (.bool value) stack)
  | .number text => some (complete (.number text) stack)
  | .string raw => some (complete (.string raw) stack)
  | .openArray => some (.firstItem stack)
  | .openObject => some (.firstKey stack)
  | _ => none

/-- One lexeme. -/
def next? (reader : Reader) (lexeme : Lexeme) : Option Reader :=
  match reader, lexeme with
  | .expectValue stack, _ => begin? stack lexeme
  | .firstItem stack, .closeArray => some (complete (.array []) stack)
  | .firstItem stack, _ => begin? (.array [] :: stack) lexeme
  | .afterItem done stack, .comma => some (.expectValue (.array done :: stack))
  | .afterItem done stack, .closeArray => some (complete (.array done.reverse) stack)
  | .firstKey stack, .closeObject => some (complete (.object []) stack)
  | .firstKey stack, .string raw => some (.afterKey [] raw stack)
  | .expectKey done stack, .string raw => some (.afterKey done raw stack)
  | .afterKey done key stack, .colon => some (.expectValue (.object done key :: stack))
  | .afterMember done stack, .comma => some (.expectKey done stack)
  | .afterMember done stack, .closeObject => some (complete (.object done.reverse) stack)
  | _, _ => none

/-- Reads a row of lexemes. -/
def run? (reader : Reader) : List Lexeme → Option Reader
  | [] => some reader
  | lexeme :: rest =>
      match reader.next? lexeme with
      | none => none
      | some reader => reader.run? rest

end Reader

/-- The value whose lexemes these are. -/
def ofLexemes? (lexemes : List Lexeme) : Option Json :=
  match (Reader.expectValue []).run? lexemes with
  | some (.finished value) => some value
  | _ => none

/-- The value a text holds, if it holds one value and blanks around it. -/
def read? (text : Bytes) : Option Json :=
  (lexemes? text).bind ofLexemes?

end Json

end CipherRelay
