import CipherRelay.Handoff.Consumer
import CipherRelay.Handoff.Producer
import CipherRelay.Party.Run
import CipherRelay.Party.Script
import CipherRelay.Threshold.Alice
import CipherRelay.Threshold.Bob
/-!
Participants: the machines of all roles under one type, so that they can take part in one exchange.
A participant does what its machine does; only the data of its own are of another type in each role.
-/
namespace CipherRelay.Party

open Handoff Threshold

/-- The machine of a participant. -/
inductive Participant (ρ : Type)
  | producer (machine : Machine ProducerState Producer ρ)
  | consumer (machine : Machine ConsumerState Consumer ρ)
  | alice (machine : Machine AliceState Knowledge ρ)
  | bob (machine : Machine BobState Knowledge ρ)
  | script (machine : Machine UInt32 Script ρ)

/-- A participant's own data. -/
inductive Findings
  | producer (data : Producer)
  | consumer (data : Consumer)
  | threshold (data : Knowledge)
  | script (data : Script)

namespace Participant

variable {ρ : Type}

/-- A producer with a vector of its own, or one that draws its vector. -/
def ofVector [RandomSource ρ] (vector : Option (List Int64)) (policy : RetryPolicy) :
    Participant ρ :=
  .producer (.start Producer.table { vector } policy)

/-- The participant of a role. -/
def ofRole [RandomSource ρ] (role : Role) (policy : RetryPolicy) : Participant ρ :=
  match role with
  | .producer => ofVector none policy
  | .consumer => .consumer (.start Consumer.table {} policy)
  | .alice => .alice (.start Alice.table {} policy)
  | .bob => .bob (.start Bob.table {} policy)

/-- What a function that fits every machine says of a participant's. -/
def view {α : Type}
    (f : {S L : Type} → [DecidableEq S] → [ToString S] → Machine S L ρ → α) :
    Participant ρ → α
  | .producer machine => f machine
  | .consumer machine => f machine
  | .alice machine => f machine
  | .bob machine => f machine
  | .script machine => f machine

/-- The text of the state in which a participant waits. -/
def state (participant : Participant ρ) : String :=
  participant.view fun machine => toString machine.state

/-- Whether a participant has halted. -/
def halted (participant : Participant ρ) : Bool :=
  participant.view fun machine => machine.halted

/-- For how many states a participant has a step. -/
def steps (participant : Participant ρ) : Nat :=
  participant.view fun machine => machine.table.size

/-- How patient a participant is. -/
def policy (participant : Participant ρ) : RetryPolicy :=
  participant.view fun machine => machine.policy

/-- The error of a participant that has waited too long. -/
def impatience (participant : Participant ρ) : PartyError :=
  participant.view fun machine => machine.impatience

/-- A participant's own data. -/
def findings : Participant ρ → Findings
  | .producer machine => .producer machine.data
  | .consumer machine => .consumer machine.data
  | .alice machine => .threshold machine.data
  | .bob machine => .threshold machine.data
  | .script machine => .script machine.data

/-- What comes of handing one message to a participant. -/
structure Receipt (ρ : Type) where
  outcome : Except (Failure PartyError) Reaction
  participant : Participant ρ
  source : ρ

/-- The receipt of a machine's delivery. -/
def receipt {S L : Type} (participant : Machine S L ρ → Participant ρ)
    (delivery : Delivery S L ρ) : Receipt ρ :=
  ⟨delivery.outcome, participant delivery.machine, delivery.source⟩

/-- Hands a message to a participant. -/
def onMessage (participant : Participant ρ) (source : ρ) (message : Message) : Receipt ρ :=
  match participant with
  | .producer machine => receipt .producer (machine.onMessage source message)
  | .consumer machine => receipt .consumer (machine.onMessage source message)
  | .alice machine => receipt .alice (machine.onMessage source message)
  | .bob machine => receipt .bob (machine.onMessage source message)
  | .script machine => receipt .script (machine.onMessage source message)

/-- An ending with the data of a machine as findings. -/
def conclude {L : Type} (findings : L → Findings) (ending : Ending L ρ) : Ending Findings ρ :=
  ⟨ending.result.map findings, ending.line, ending.elapsed, ending.source⟩

/-- Runs a participant over a line. -/
def run (participant : Participant ρ) (signal : Option Nat) (line : Line) (source : ρ) :
    Ending Findings ρ :=
  match participant with
  | .producer machine => conclude .producer (machine.run signal line 0 source)
  | .consumer machine => conclude .consumer (machine.run signal line 0 source)
  | .alice machine => conclude .threshold (machine.run signal line 0 source)
  | .bob machine => conclude .threshold (machine.run signal line 0 source)
  | .script machine => conclude .script (machine.run signal line 0 source)

end Participant

end CipherRelay.Party
