import CipherRelay.Json.Text
/-!
Records and alternatives in JSON. A record is an object with one member for each of its fields, and
it may also be given as the array of its fields. An alternative without data is the string of its
name, and one with data is an object whose only member has that name.
-/
namespace CipherRelay.Json

/-- The object of a record, with its fields in order. -/
def record (fields : List (String × Json)) : Json :=
  .object (fields.map fun (name, value) => (escape name, value))

/-- The value of the only member with a name. -/
def only? (name : String) (members : List (String × Json)) : Option Json :=
  match members.filter (·.1 = name) with
  | [(_, value)] => some value
  | _ => none

/-- The values of the named fields, in the order of the names. In an object each name must occur
once, every key must be a text, and other members are passed over. An array must have exactly one
item for each name. -/
def fields? (names : List String) : Json → Option (List Json)
  | .array items => if items.length = names.length then some items else none
  | .object members => do
      let members ← members.mapM fun (key, value) => (unescape? key).map (·, value)
      names.mapM fun name => only? name members
  | _ => none

/-- An alternative without data. -/
def bareVariant (name : String) : Json := ofText name

/-- An alternative with data. -/
def variant (name : String) (data : Json) : Json := record [(name, data)]

/-- The name and the data of an alternative. -/
def variant? : Json → Option (String × Option Json)
  | .string raw => (unescape? raw).map (·, none)
  | .object [(key, data)] => (unescape? key).map (·, some data)
  | _ => none

/-- The name of an alternative without data; its data may also be spelled out as null. -/
def bareVariant? (value : Json) : Option String :=
  match value.variant? with
  | some (name, none) | some (name, some .null) => some name
  | _ => none

end CipherRelay.Json
