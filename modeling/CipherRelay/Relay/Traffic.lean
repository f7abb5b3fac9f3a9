import CipherRelay.Relay.Service
/-!
The relay at work on several connections at once. Each connection handles its own messages one at a
time: it takes a message, hands the message's request to the mailbox server, and replies once the
server has answered. The server executes the requests of all connections one at a time, in the order
in which they have arrived. How the connections and the server take turns is left open.
-/
namespace CipherRelay.Relay

/-- A message that a connection has taken, and the source that its handling draws from. -/
structure Call (ρ : Type) where
  line : Nat
  envelope : Envelope
  source : ρ
  deriving DecidableEq

/-- What a connection is doing. -/
inductive Phase (ρ : Type)
  /-- It waits for a message. -/
  | idle
  /-- It waits for the mailbox server. -/
  | asking (call : Call ρ) (handler : Handler) (request : Mailbox.Request)
  /-- The server has answered, and the reply is to be sent. -/
  | answered (call : Call ρ) (handler : Handler) (answer : Option Mailbox.Reply)
  /-- It takes no message any more. -/
  | closed

/-- The relay's end of a connection, and what it has responded to the messages it has taken. -/
structure Line (ρ : Type) where
  phase : Phase ρ := .idle
  responses : List (Call ρ × Response) := []

/-- Whether a connection goes on after a response. An error of a handler and a reply that fits no
frame end it. -/
def Response.goesOn (session : SessionId) : Response → Bool
  | .unprocessed | .handled none => true
  | .handled (some reply) => (Wire.frame? ⟨session, reply⟩).isSome
  | .failed _ => false

/-- The connection after its response to a message. -/
def Line.respond {ρ : Type} (line : Line ρ) (call : Call ρ) (response : Response) : Line ρ where
  phase := if response.goesOn call.envelope.session then .idle else .closed
  responses := line.responses ++ [(call, response)]

/-- A relay and its connections. -/
structure Traffic (ρ : Type) where
  relay : Relay
  lines : List (Line ρ)
  /-- The connections whose requests have arrived at the server, the one that is next first. -/
  queue : List Nat := []
  /-- The messages in the order in which the server has executed their requests. One without a
  request stands where it has been taken. -/
  log : List (Call ρ) := []

namespace Traffic

variable {ρ : Type}

/-- A relay to which a number of clients have connected. -/
def start (relay : Relay) (count : Nat) : Traffic ρ where
  relay := relay
  lines := List.replicate count {}

def setLine (traffic : Traffic ρ) (i : Nat) (line : Line ρ) : Traffic ρ :=
  { traffic with lines := traffic.lines.set i line }

/-- A connection that waits for a message takes one. -/
def take? (traffic : Traffic ρ) (call : Call ρ) : Option (Traffic ρ) := do
  let line ← traffic.lines[call.line]?
  let .idle := line.phase | none
  match opening traffic.relay.context call.envelope.session call.envelope.message with
  | .settled response =>
      return { traffic.setLine call.line (line.respond call response) with
        log := traffic.log ++ [call] }
  | .asks handler request =>
      return { traffic.setLine call.line { line with phase := .asking call handler request } with
        queue := traffic.queue ++ [call.line] }

/-- The server executes the request that is next. -/
def execute? (traffic : Traffic ρ) : Option (Traffic ρ) := do
  let i :: queue := traffic.queue | none
  let line ← traffic.lines[i]?
  let .asking call handler request := line.phase | none
  let (answer, server) := traffic.relay.server.execute request
  return { traffic.setLine i { line with phase := .answered call handler answer } with
    relay := { traffic.relay with server }
    queue := queue
    log := traffic.log ++ [call] }

variable [RandomSource ρ]

/-- A connection that the server has answered replies. -/
def finish? (traffic : Traffic ρ) (i : Nat) : Option (Traffic ρ) := do
  let line ← traffic.lines[i]?
  let .answered call handler answer := line.phase | none
  return traffic.setLine i (line.respond call
    (conclusion traffic.relay.context handler call.envelope.message answer call.source))

/-- What can happen. -/
inductive Event (ρ : Type)
  /-- A connection takes a message. -/
  | take (call : Call ρ)
  /-- The server executes a request. -/
  | execute
  /-- A connection replies. -/
  | finish (line : Nat)

/-- The traffic after an event, if the event is possible. -/
def step? (traffic : Traffic ρ) : Event ρ → Option (Traffic ρ)
  | .take call => traffic.take? call
  | .execute => traffic.execute?
  | .finish i => traffic.finish? i

/-- The traffic after several events, if they are possible one after another. -/
def follow? (start : Traffic ρ) (events : List (Event ρ)) : Option (Traffic ρ) :=
  events.foldlM (fun traffic event => traffic.step? event) start

end Traffic

end CipherRelay.Relay
