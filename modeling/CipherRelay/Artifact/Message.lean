import CipherRelay.Artifact
import CipherRelay.Message
/-!
The JSON forms of names, sessions, messages and envelopes. A session is the array of its bytes and a
payload is an array of bytes too.
-/
namespace CipherRelay

instance : Artifact Role where
  toJson role := .bareVariant role.name
  ofJson? value := value.bareVariant?.bind (named? Role.name Role.all)

instance : Artifact Operation where
  toJson operation := .bareVariant operation.name
  ofJson? value := value.bareVariant?.bind (named? Operation.name Operation.all)

namespace ArtifactKind

/-- The JSON form of a kind. -/
def write (kind : ArtifactKind) : Json :=
  match kind.operation? with
  | some operation => .variant kind.name (toJson operation)
  | none => .bareVariant kind.name

/-- The kind of a JSON form. -/
def read? (value : Json) : Option ArtifactKind :=
  match value.variant? with
  | some ("PartialLead", some operation) => (ofJson? operation).map partialLead
  | some ("PartialMain", some operation) => (ofJson? operation).map partialMain
  | _ => value.bareVariant?.bind (named? name simple)

end ArtifactKind

instance : Artifact ArtifactKind := ⟨ArtifactKind.write, ArtifactKind.read?⟩

namespace Tag

/-- The JSON form of a tag. -/
def write (tag : Tag) : Json :=
  match tag with
  | .serverAccept | .deny => .bareVariant tag.name
  | .request kind | .send kind | .ack kind | .nack kind => .variant tag.name (toJson kind)
  | .disconnect role => .variant tag.name (toJson role)

/-- The tag of a JSON form. -/
def read? (value : Json) : Option Tag :=
  match value.variant? with
  | some ("Request", some kind) => (ofJson? kind).map request
  | some ("Send", some kind) => (ofJson? kind).map send
  | some ("Ack", some kind) => (ofJson? kind).map ack
  | some ("Nack", some kind) => (ofJson? kind).map nack
  | some ("Disconnect", some role) => (ofJson? role).map disconnect
  | _ => value.bareVariant?.bind (named? name [serverAccept, deny])

end Tag

instance : Artifact Tag := ⟨Tag.write, Tag.read?⟩

instance : Artifact SessionId where
  toJson session := toJson session.bytes
  ofJson? value := (ofJson? value : Option Bytes).bind SessionId.ofBytes?

instance : Artifact Message where
  toJson message :=
    .record [("tag", toJson message.tag), ("payload", toJson message.payload)]
  ofJson? value := do
    let [tag, payload] ← value.fields? ["tag", "payload"] | none
    return ⟨← ofJson? tag, ← ofJson? payload⟩

instance : Artifact Envelope where
  toJson envelope :=
    .record [("session", toJson envelope.session), ("message", toJson envelope.message)]
  ofJson? value := do
    let [session, message] ← value.fields? ["session", "message"] | none
    return ⟨← ofJson? session, ← ofJson? message⟩

end CipherRelay
