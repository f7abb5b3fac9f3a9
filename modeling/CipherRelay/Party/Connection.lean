import CipherRelay.Party.Error
import CipherRelay.Wire.Stream
/-!
A party's connection to the relay. What it sends is put into frames of its own session. What arrives
is taken out of its frames and queued until the party asks for it, whatever session it names; the
stream is closed by its end or by a header that announces too long a body.
-/
namespace CipherRelay.Party

/-- A connection as the party sees it. -/
structure Connection where
  session : SessionId
  decoder : Wire.Decoder := .start
  /-- The messages that have arrived and not been asked for. -/
  queue : List Message := []
  isOpen : Bool := true

namespace Connection

/-- One thing that the decoder tells. A malformed frame is dropped. -/
def accept (connection : Connection) : Wire.Item → Connection
  | .envelope envelope => { connection with queue := connection.queue ++ [envelope.message] }
  | .malformed => connection
  | .oversized => { connection with isOpen := false }

/-- Some bytes arrive. -/
def arrive (connection : Connection) (bytes : Bytes) : Connection :=
  let (decoder, items) := connection.decoder.feed bytes
  items.foldl accept { connection with decoder }

/-- The stream ends. -/
def finish (connection : Connection) : Connection :=
  { connection with isOpen := false }

/-- Takes the next message without waiting. There is none only while the stream is open and nothing
is queued; after the last message a closed connection is an error. -/
def poll (connection : Connection) : Except PartyError (Option Message) × Connection :=
  match connection.queue with
  | message :: queue => (.ok (some message), { connection with queue })
  | [] =>
      if connection.isOpen then (.ok none, connection)
      else (.error .connectionClosed, connection)

/-- Takes the next message, or answers nothing while the party has to wait for one. -/
def receive? (connection : Connection) : Option (Except PartyError Message × Connection) :=
  match connection.poll with
  | (.ok (some message), connection) => some (.ok message, connection)
  | (.ok none, _) => none
  | (.error error, connection) => some (.error error, connection)

/-- The frame in which a message is sent. -/
def send (connection : Connection) (message : Message) : Except PartyError Bytes :=
  match Wire.frame? ⟨connection.session, message⟩ with
  | some frame => .ok frame
  | none => .error (.connection "Node: io error: frame size too big")

end Connection

end CipherRelay.Party
