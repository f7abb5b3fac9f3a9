import CipherRelay.Json.Number
import CipherRelay.Json.Record
/-!
Artifacts. Everything that parties hand to each other through the relay is a value with a JSON form,
and its payload is that form without blanks. Reading a payload is stricter than writing is free: a
payload may have blanks and its fields in any order, but it must hold one value of the right shape.
-/
namespace CipherRelay

/-- A type whose values travel as JSON. -/
class Artifact (α : Type) where
  toJson : α → Json
  ofJson? : Json → Option α

export Artifact (toJson ofJson?)

namespace Artifact

variable {α : Type}

/-- The payload of an artifact. -/
def encode [Artifact α] (artifact : α) : Bytes :=
  (toJson artifact).render

/-- The artifact of a payload. -/
def decode? [Artifact α] (payload : Bytes) : Option α :=
  (Json.read? payload).bind ofJson?

instance : Artifact UInt8 where
  toJson n := .ofNat n.toNat
  ofJson? value := (value.below? UInt8.size).map (·.toUInt8)

instance : Artifact UInt32 where
  toJson n := .ofNat n.toNat
  ofJson? value := (value.below? UInt32.size).map (·.toUInt32)

instance : Artifact UInt64 where
  toJson n := .ofNat n.toNat
  ofJson? value := (value.below? UInt64.size).map (·.toUInt64)

instance : Artifact Int64 where
  toJson n := .ofInt n.toInt
  ofJson? value := (value.between? Int64.minValue.toInt Int64.maxValue.toInt).map Int64.ofInt

instance : Artifact String where
  toJson := .ofText
  ofJson? := Json.text?

instance [Artifact α] : Artifact (List α) where
  toJson items := .array (items.map toJson)
  ofJson?
    | .array items => items.mapM ofJson?
    | _ => none

end Artifact

/-- The member of a list with the given written name. -/
def named? {α : Type} (name : α → String) (all : List α) (text : String) : Option α :=
  all.find? fun item => name item = text

end CipherRelay
