import CipherRelay.Party.Connection
import CipherRelay.Relay.Service
/-!
A dialogue: a party's connection and the relay's end of it, with nothing in between. What one side
sends is at the other side before anything else happens.
-/
namespace CipherRelay

open Party (Connection PartyError)

/-- Both ends of a connection. -/
structure Dialogue (ρ : Type) where
  connection : Connection
  /-- What the relay has seen of the frame that is arriving. -/
  decoder : Wire.Decoder := .start
  relay : Relay
  source : ρ

namespace Dialogue

variable {ρ : Type}

/-- The envelopes arrive in their frames. -/
def deliver (connection : Connection) (envelopes : List Envelope) : Connection :=
  connection.arrive (envelopes.flatMap fun envelope => (Wire.frame? envelope).getD [])

/-- Connects to the relay. -/
def start (relay : Relay) (source : ρ) (session : SessionId) : Dialogue ρ where
  connection := deliver { session } [Relay.greeting]
  relay := relay
  source := source

/-- Sends a message, and the relay answers. A service that does not go on closes the connection. -/
def send [RandomSource ρ] (dialogue : Dialogue ρ) (message : Message) :
    Except PartyError (Dialogue ρ) := do
  let frame ← dialogue.connection.send message
  let (decoder, items) := dialogue.decoder.feed frame
  let service := dialogue.relay.serve dialogue.source items
  let connection := deliver dialogue.connection service.replies
  return {
    connection := if service.goesOn then connection else connection.finish
    decoder
    relay := service.relay
    source := service.source }

/-- Takes all messages that have arrived. -/
def drain (dialogue : Dialogue ρ) : List Message × Dialogue ρ :=
  (dialogue.connection.queue,
    { dialogue with connection := { dialogue.connection with queue := [] } })

end Dialogue

end CipherRelay
