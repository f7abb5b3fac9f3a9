import CipherRelay.Hash.Blake2s
/-!
Session identifiers. A session is one run of a protocol; everything the relay stores is filed under
its session. Both parties of a run derive the identifier from the same label.
-/
namespace CipherRelay

/-- The identifier of a session, 32 bytes. -/
structure SessionId where
  bytes : Bytes
  length_bytes : bytes.length = 32
  deriving DecidableEq

namespace SessionId

/-- The session of these bytes, if they are 32. -/
def ofBytes? (bytes : Bytes) : Option SessionId :=
  if h : bytes.length = 32 then some ⟨bytes, h⟩ else none

/-- The session that a label stands for, the digest of its text. -/
def ofLabel (label : String) : SessionId :=
  ⟨Hash.Blake2s.digest (Bytes.ofText label), Hash.Blake2s.length_digest _⟩

/-- The session in which the relay itself speaks. -/
def default : SessionId := ofLabel "default"

/-- A short text of a session, the first eight bytes. -/
def text (session : SessionId) : String :=
  Bytes.hex (session.bytes.take 8)

/-- The short text with the name of its type around it. -/
def labelled (session : SessionId) : String :=
  "SessionId(" ++ session.text ++ ")"

instance : ToString SessionId := ⟨text⟩

/-- A session is the session of its bytes. -/
theorem ofBytes?_bytes (session : SessionId) : ofBytes? session.bytes = some session := by
  simp [ofBytes?, session.length_bytes]

end SessionId

end CipherRelay
