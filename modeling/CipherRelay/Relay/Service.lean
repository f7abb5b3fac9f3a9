import CipherRelay.Relay.Basic
import CipherRelay.Wire.Stream
/-!
The relay's end of a connection. It greets whoever connects and then answers what arrives, strictly
in order: an envelope is dispatched and its reply goes out in the same session, and a frame without
an envelope is denied. Too long a header, an error of a handler and a reply that fits no frame end
the service.
-/
namespace CipherRelay.Relay

/-- The envelope that greets a connection. -/
def greeting : Envelope := ⟨.default, .bare .serverAccept⟩

/-- The envelope that answers a frame without an envelope. -/
def denial : Envelope := ⟨.default, .bare .deny⟩

/-- What the relay sends, whether it goes on, and the relay and the source after it. -/
structure Service (ρ : Type) where
  replies : List Envelope
  goesOn : Bool
  relay : Relay
  source : ρ

variable {ρ : Type}

/-- Sends a reply if it fits a frame. -/
def sendReply (relay : Relay) (source : ρ) (envelope : Envelope) : Service ρ :=
  match Wire.frame? envelope with
  | some _ => ⟨[envelope], true, relay, source⟩
  | none => ⟨[], false, relay, source⟩

variable [RandomSource ρ]

/-- Answers one thing that has arrived. -/
def answer (relay : Relay) (source : ρ) : Wire.Item → Service ρ
  | .oversized => ⟨[], false, relay, source⟩
  | .malformed => relay.sendReply source denial
  | .envelope envelope =>
      let handling := relay.dispatch source envelope.session envelope.message
      match handling.response with
      | .unprocessed | .handled none => ⟨[], true, handling.relay, handling.source⟩
      | .handled (some reply) =>
          handling.relay.sendReply handling.source ⟨envelope.session, reply⟩
      | .failed _ => ⟨[], false, handling.relay, handling.source⟩

/-- Answers what has arrived, in order, for as long as the service goes on. -/
def serve (relay : Relay) (source : ρ) : List Wire.Item → Service ρ
  | [] => ⟨[], true, relay, source⟩
  | item :: rest =>
      let first := relay.answer source item
      if first.goesOn then
        let later := first.relay.serve first.source rest
        { later with replies := first.replies ++ later.replies }
      else first

/-- Serves a connection whose peer sends these bytes and then nothing more. -/
def serveStream (relay : Relay) (source : ρ) (bytes : Bytes) : Service ρ :=
  let service := relay.serve source (Wire.Decoder.start.feed bytes).2
  { service with replies := greeting :: service.replies, goesOn := false }

end CipherRelay.Relay
