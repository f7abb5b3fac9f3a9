import CipherRelay.Message
/-!
The body of a frame. It holds one envelope: the bytes of the session, the tag, the length of the
payload and the payload. Names are written as their numbers. What follows the payload is passed
over, so a body determines its envelope, and an envelope determines the front of its body.
-/
namespace CipherRelay.Wire

open Bytes (littleEndian ofLittleEndian)

/-- A reader takes what it understands off the front of a byte string. -/
abbrev Reader (α : Type) := StateT Bytes Option α

/-- Takes exactly `count` bytes. -/
def take (count : Nat) : Reader Bytes := fun bytes =>
  if count ≤ bytes.length then some (bytes.take count, bytes.drop count) else none

/-- Taking the length of a byte string that stands in front gives that byte string. -/
theorem take_append (bytes rest : Bytes) :
    take bytes.length (bytes ++ rest) = some (bytes, rest) := by
  simp [take]

/-- Takes a number of `count` bytes. -/
def takeNumber (count : Nat) : Reader Nat := do
  return ofLittleEndian (← take count)

/-- The four bytes of the number of a name. -/
def number (n : Nat) : Bytes :=
  littleEndian 4 n

/-- Takes the number of a name and answers the name. -/
def takeName {α : Type} (names : List α) : Reader α := do
  let n ← takeNumber 4
  match names[n]? with
  | some name => return name
  | none => failure

/-- The number of a role. -/
def writeRole (role : Role) : Bytes :=
  number (Role.all.idxOf role)

/-- Takes a role. -/
def takeRole : Reader Role :=
  takeName Role.all

/-- The number of an operation. -/
def writeOperation (operation : Operation) : Bytes :=
  number (Operation.all.idxOf operation)

/-- Takes an operation. -/
def takeOperation : Reader Operation :=
  takeName Operation.all

/-- The number of a kind. The kinds with an operation come after the others, and the number of the
operation follows theirs. -/
def writeKind : ArtifactKind → Bytes
  | .partialLead operation => number 17 ++ writeOperation operation
  | .partialMain operation => number 18 ++ writeOperation operation
  | kind => number (ArtifactKind.simple.idxOf kind)

/-- Takes a kind. -/
def takeKind : Reader ArtifactKind := do
  match ← takeNumber 4 with
  | 17 => return .partialLead (← takeOperation)
  | 18 => return .partialMain (← takeOperation)
  | n =>
      match ArtifactKind.simple[n]? with
      | some kind => return kind
      | none => failure

/-- The number of a tag and what it is about. -/
def writeTag : Tag → Bytes
  | .serverAccept => number 0
  | .request kind => number 1 ++ writeKind kind
  | .send kind => number 2 ++ writeKind kind
  | .ack kind => number 3 ++ writeKind kind
  | .nack kind => number 4 ++ writeKind kind
  | .disconnect role => number 5 ++ writeRole role
  | .deny => number 6

/-- Takes a tag. -/
def takeTag : Reader Tag := do
  match ← takeNumber 4 with
  | 0 => return .serverAccept
  | 1 => return .request (← takeKind)
  | 2 => return .send (← takeKind)
  | 3 => return .ack (← takeKind)
  | 4 => return .nack (← takeKind)
  | 5 => return .disconnect (← takeRole)
  | 6 => return .deny
  | _ => failure

/-- Takes a session. -/
def takeSession : Reader SessionId := do
  match SessionId.ofBytes? (← take 32) with
  | some session => return session
  | none => failure

/-- Takes an envelope. -/
def takeEnvelope : Reader Envelope := do
  let session ← takeSession
  let tag ← takeTag
  let payload ← take (← takeNumber 8)
  return ⟨session, tag, payload⟩

/-- The body that holds an envelope and nothing after it. -/
def body (envelope : Envelope) : Bytes :=
  envelope.session.bytes ++ writeTag envelope.message.tag ++
    littleEndian 8 envelope.message.payload.length ++ envelope.message.payload

/-- The envelope that a body holds. -/
def ofBody? (bytes : Bytes) : Option Envelope :=
  (takeEnvelope.run bytes).map (·.1)

/-- The length of the longest body. -/
def bodyLimit : Nat := 16777216

/-- The frame of an envelope, its body behind a header of four bytes that gives the body's length.
A body longer than the limit has no frame. -/
def frame? (envelope : Envelope) : Option Bytes :=
  let bytes := body envelope
  if bytes.length ≤ bodyLimit then some (Bytes.bigEndian 4 bytes.length ++ bytes) else none

end CipherRelay.Wire
