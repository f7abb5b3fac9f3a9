import CipherRelay.Session
import CipherRelay.Tag
/-!
Messages and envelopes. A party and the relay exchange messages; on the wire each stands in an
envelope that names its session.
-/
namespace CipherRelay

/-- A tag and the bytes that come with it. -/
structure Message where
  tag : Tag
  payload : Bytes
  deriving DecidableEq, Repr

namespace Message

/-- A message without a payload. -/
def bare (tag : Tag) : Message := ⟨tag, []⟩

/-- Asks for an artifact. -/
def request (kind : ArtifactKind) : Message := bare (.request kind)

/-- Carries an artifact. -/
def send (kind : ArtifactKind) (payload : Bytes) : Message := ⟨.send kind, payload⟩

/-- Takes leave of the relay. -/
def disconnect (role : Role) : Message := bare (.disconnect role)

end Message

/-- A message in its session. -/
structure Envelope where
  session : SessionId
  message : Message
  deriving DecidableEq

end CipherRelay
