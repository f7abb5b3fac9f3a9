import CipherRelay.Party.Participant
import CipherRelay.Relay.Basic
/-!
Exchanges: a relay and the participants that are connected to it. What the relay has sent to a
participant waits in its inbox, which starts with the relay's greeting, and what the participant has
sent waits in its outbox. Two things can happen at a seat: the participant takes a message from the
inbox, or the relay takes one from the outbox. They may happen at any seat at any time, so every
schedule of the participants is a list of such events. A tick is the first event followed by the
second.
-/
namespace CipherRelay

open Party (Findings Participant PartyError Reaction)

/-- A participant and its connection. -/
structure Seat (ρ : Type) where
  participant : Participant ρ
  session : SessionId
  /-- What the relay has sent and the participant has not taken yet. -/
  inbox : List Message := [.bare .serverAccept]
  /-- What the participant has sent and the relay has not taken yet. -/
  outbox : List Message := []
  /-- Why the participant has given up. -/
  failure : Option (Failure PartyError) := none

/-- A relay, the seats, and the source that all of them draw from. -/
structure Exchange (ρ : Type) where
  relay : Relay
  source : ρ
  seats : List (Seat ρ)

namespace Seat

variable {ρ : Type}

/-- Whether the participant has not given up. -/
def isLive (seat : Seat ρ) : Bool :=
  seat.failure.isNone

/-- The next message for the participant, a given one before those of the inbox, and the seat
without it. A participant that has given up takes none. -/
def take? (seat : Seat ρ) (given : Option Message) : Option (Message × Seat ρ) :=
  if !seat.isLive then none
  else
    match given, seat.inbox with
    | some message, _ => some (message, seat)
    | none, message :: inbox => some (message, { seat with inbox })
    | none, [] => none

/-- The seat after its participant has answered to a message. -/
def settle (seat : Seat ρ) (participant : Participant ρ) :
    Except (Failure PartyError) Reaction → Seat ρ
  | .ok reaction =>
      { seat with participant, outbox := seat.outbox ++ reaction.message?.toList }
  | .error failure => { seat with participant, failure := some failure }

/-- The seat after the relay has responded. -/
def enqueue (seat : Seat ρ) : Relay.Response → Seat ρ
  | .handled reply => { seat with inbox := seat.inbox ++ reply.toList }
  | _ => seat

end Seat

/-- What a participant did with a message. -/
structure Turn where
  seat : Nat
  /-- The message that it took. -/
  received : Message
  outcome : Except (Failure PartyError) Reaction
  /-- The state in which it waits afterwards. -/
  state : String

/-- A participant's turn and what the relay did with the message that it sent, if it sent one. -/
structure Tick where
  turn : Turn
  response : Option Relay.Response

namespace Exchange

variable {ρ : Type}

/-- Puts a seat in its place. -/
def setSeat (exchange : Exchange ρ) (i : Nat) (seat : Seat ρ) : Exchange ρ :=
  { exchange with seats := exchange.seats.set i seat }

/-- The participant at a seat takes a message, if there is one for it. -/
def receive? (exchange : Exchange ρ) (i : Nat) (given : Option Message) :
    Option (Turn × Exchange ρ) := do
  let seat ← exchange.seats[i]?
  let (received, seat) ← seat.take? given
  let receipt := seat.participant.onMessage exchange.source received
  let exchange := { exchange with source := receipt.source }
  return (⟨i, received, receipt.outcome, receipt.participant.state⟩,
    exchange.setSeat i (seat.settle receipt.participant receipt.outcome))

/-- A number of rounds that is enough for everybody to stop: in each state a participant sends one
message and re-sends it as often as its policy allows. -/
def patience (exchange : Exchange ρ) : Nat :=
  exchange.seats.foldl (fun rounds seat => rounds +
    (seat.participant.steps + 1) * (seat.participant.policy.maxAttempts.toNat + 2)) 1

/-- How a participant's run ends once nobody moves any more. One that still waits then gives up. -/
def conclusion (seat : Seat ρ) : Except (Failure PartyError) Findings :=
  match seat.failure with
  | some failure => .error failure
  | none =>
      if seat.participant.halted then .ok seat.participant.findings
      else .error (.error seat.participant.impatience)

variable [RandomSource ρ]

/-- The relay takes a message that somebody has sent in a session. -/
def dispatch (exchange : Exchange ρ) (session : SessionId) (message : Message) :
    Relay.Response × Exchange ρ :=
  let handling := exchange.relay.dispatch exchange.source session message
  (handling.response, { exchange with relay := handling.relay, source := handling.source })

/-- The relay takes a message from the outbox of a seat, if there is one. -/
def serve? (exchange : Exchange ρ) (i : Nat) : Option (Relay.Response × Exchange ρ) := do
  let seat ← exchange.seats[i]?
  let message :: outbox := seat.outbox | none
  let (response, exchange) := exchange.dispatch seat.session message
  return (response, exchange.setSeat i ({ seat with outbox }.enqueue response))

/-- What can happen. -/
inductive Event
  | receive (seat : Nat)
  | serve (seat : Nat)
  /-- Somebody else sends a message. -/
  | outside (session : SessionId) (message : Message)
  deriving DecidableEq

/-- The exchange after an event, if the event is possible. -/
def step? (exchange : Exchange ρ) : Event → Option (Exchange ρ)
  | .receive i => (exchange.receive? i none).map (·.2)
  | .serve i => (exchange.serve? i).map (·.2)
  | .outside session message => some (exchange.dispatch session message).2

/-- A tick of the participant at a seat, if it has a message to take. -/
def tick? (exchange : Exchange ρ) (i : Nat) (given : Option Message) :
    Option (Tick × Exchange ρ) := do
  let (turn, exchange) ← exchange.receive? i given
  match exchange.serve? i with
  | some (response, exchange) => return (⟨turn, some response⟩, exchange)
  | none => return (⟨turn, none⟩, exchange)

/-- One tick for each of the given seats that has a message to take. -/
def sweep (exchange : Exchange ρ) : List Nat → List Tick × Exchange ρ
  | [] => ([], exchange)
  | i :: rest =>
      match exchange.tick? i none with
      | none => exchange.sweep rest
      | some (tick, exchange) =>
          let (ticks, exchange) := exchange.sweep rest
          (tick :: ticks, exchange)

/-- A tick for every seat, in order. -/
def round (exchange : Exchange ρ) : List Tick × Exchange ρ :=
  exchange.sweep (List.range exchange.seats.length)

/-- Several rounds, at most `count`, until one in which nobody moves. -/
def rounds (exchange : Exchange ρ) : Nat → List Tick × Exchange ρ
  | 0 => ([], exchange)
  | count + 1 =>
      match exchange.round with
      | ([], exchange) => ([], exchange)
      | (ticks, exchange) =>
          let (later, exchange) := exchange.rounds count
          (ticks ++ later, exchange)

/-- Lets everybody move until nobody can, and tells how their runs end. -/
def conclude (exchange : Exchange ρ) : List (Except (Failure PartyError) Findings) :=
  let (_, exchange) := exchange.rounds exchange.patience
  exchange.seats.map conclusion

end Exchange

end CipherRelay
