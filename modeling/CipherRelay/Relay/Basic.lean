import CipherRelay.Relay.Handler
/-!
The relay: a context that exists from the start, and a mailbox server. Messages are dispatched by
their tags.
-/
namespace CipherRelay

open Scheme (Context ContextParams)

/-- A relay at work. -/
structure Relay where
  context : Context
  server : Mailbox.Server

namespace Relay

/-- A relay with an empty mailbox, if the scheme accepts the parameters. -/
def launch (params : ContextParams) : Except RelayError Relay :=
  match Context.generate params with
  | .ok context => .ok ⟨context, .start⟩
  | .error error => .error (.engine error)

/-- What comes of a message. -/
inductive Response
  /-- No handler is called for. -/
  | unprocessed
  /-- The message is handled, with or without a reply. -/
  | handled (reply : Option Message)
  | failed (failure : Failure RelayError)
  deriving DecidableEq

/-- A response, and the relay and the source after it. -/
structure Handling (ρ : Type) where
  response : Response
  relay : Relay
  source : ρ

variable {ρ : Type} [RandomSource ρ]

/-- Lets a handler handle a message. -/
def handle (relay : Relay) (handler : Handler) (source : ρ) (session : SessionId)
    (message : Message) : Handling ρ :=
  match handler.begin relay.context session message with
  | .error error => ⟨.failed (.error error), relay, source⟩
  | .ok (.done reply) => ⟨.handled reply, relay, source⟩
  | .ok (.ask request) =>
      let (answer, server) := relay.server.execute request
      match handler.finish relay.context message answer source with
      | .ok reply source => ⟨.handled reply, { relay with server }, source⟩
      | .error failure source => ⟨.failed failure, { relay with server }, source⟩

/-- Looks up the handler of a message and lets it handle the message. -/
def dispatch (relay : Relay) (source : ρ) (session : SessionId) (message : Message) : Handling ρ :=
  match handler? message.tag with
  | some handler => relay.handle handler source session message
  | none => ⟨.unprocessed, relay, source⟩

/-- How the handling of a message begins. -/
inductive Opening
  /-- The response is settled without the mailbox. -/
  | settled (response : Response)
  /-- A handler asks the mailbox first. -/
  | asks (handler : Handler) (request : Mailbox.Request)

/-- The part of handling a message that comes before the mailbox is asked. -/
def opening (cc : Context) (session : SessionId) (message : Message) : Opening :=
  match handler? message.tag with
  | none => .settled .unprocessed
  | some handler =>
      match handler.begin cc session message with
      | .error error => .settled (.failed (.error error))
      | .ok (.done reply) => .settled (.handled reply)
      | .ok (.ask request) => .asks handler request

/-- The part of handling a message that comes after the mailbox has answered. -/
def conclusion (cc : Context) (handler : Handler) (message : Message)
    (answer : Option Mailbox.Reply) (source : ρ) : Response :=
  match handler.finish cc message answer source with
  | .ok reply _ => .handled reply
  | .error failure _ => .failed failure

/-- Shuts the mailbox server down. -/
def shutDown (relay : Relay) : Except Mailbox.StoreError Unit × Relay :=
  let (answer, server) := relay.server.execute .shutdown
  (Mailbox.Client.shutDown answer, { relay with server })

end Relay

end CipherRelay
