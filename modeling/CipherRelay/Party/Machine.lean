import CipherRelay.Artifact.Message
import CipherRelay.Party.Error
import CipherRelay.Random
/-!
The machine that makes a party follow its protocol. A step table names, for every state, the tag
that fires the state's action and the tag on which the last message is sent once more. The action
works on the party's own data; it decides what to send and where to wait next. All that makes one
role differ from another is its table.
-/
namespace CipherRelay.Party

/-- What an action decides. -/
inductive Next (S : Type)
  /-- Send the message and wait in the state. -/
  | send (message : Message) (state : S)
  /-- Send the message and stop. -/
  | halt (message : Message)
  deriving DecidableEq

/-- A computation on a party's own data and on the source it draws from. What it has changed stays
changed where it fails. -/
abbrev Action (L ρ α : Type) := EStateM (Failure PartyError) (L × ρ) α

namespace Action

variable {L ρ α : Type}

/-- Fails with an error. -/
def fail (error : PartyError) : Action L ρ α :=
  throw (.error error)

/-- The party's own data. -/
def data : Action L ρ L := fun (l, source) => .ok l (l, source)

/-- Changes the party's own data. -/
def change (f : L → L) : Action L ρ Unit := fun (l, source) => .ok () (f l, source)

/-- Runs an operation of the scheme that draws from the source. -/
def draw (operation : Draw ρ Scheme.EngineError α) : Action L ρ α := fun (l, source) =>
  match operation source with
  | .ok value source => .ok value (l, source)
  | .error failure source => .error (failure.mapError .engine) (l, source)

/-- Runs an operation of the scheme that draws nothing. -/
def engine (operation : Scheme.Outcome α) : Action L ρ α := fun state =>
  match operation with
  | .ok value => .ok value state
  | .error failure => .error (failure.mapError .engine) state

/-- An arithmetic operation. -/
def compute (operation : Except Crash α) : Action L ρ α := fun state =>
  match operation with
  | .ok value => .ok value state
  | .error crash => .error (.crash crash) state

/-- The artifact of a payload. -/
def decode [Artifact α] (payload : Bytes) : Action L ρ α :=
  engine (Scheme.decode payload)

/-- A piece of data that an earlier step should have filled in. -/
def require (item : String) (piece : Option α) : Action L ρ α :=
  match piece with
  | some value => pure value
  | none => fail (.missingLocalState item)

end Action

/-- What a machine does in one state. -/
structure Step (S L ρ : Type) where
  /-- The tag that fires the action. -/
  trigger : Tag
  /-- What to do with the message that carries the trigger. -/
  action : Message → Action L ρ (Next S)
  /-- The tag on which the last message is sent once more. -/
  retryOn : Option Tag := none

/-- The steps of a role and the state it starts in. There is one step at most for a state. -/
structure StepTable (S L ρ : Type) where
  initial : S
  steps : List (S × Step S L ρ) := []

namespace StepTable

variable {S L ρ : Type}

/-- For how many states there is a step. -/
def size (table : StepTable S L ρ) : Nat :=
  table.steps.length

variable [DecidableEq S]

/-- The table with a step for one more state; an earlier step for it is replaced. -/
def step (table : StepTable S L ρ) (state : S) (step : Step S L ρ) : StepTable S L ρ :=
  { table with steps := (state, step) :: table.steps.filter fun entry => entry.1 ≠ state }

/-- The table with several more steps. -/
def extend (table : StepTable S L ρ) (steps : List (S × Step S L ρ)) : StepTable S L ρ :=
  steps.foldl (fun table (state, step) => table.step state step) table

/-- The step for a state. -/
def get? (table : StepTable S L ρ) (state : S) : Option (Step S L ρ) :=
  (table.steps.find? fun entry => entry.1 = state).map (·.2)

end StepTable

/-- How patient a party is. Times are in milliseconds. -/
structure RetryPolicy where
  backoff : Nat := 1000
  maxAttempts : UInt32 := 600
  replyTimeout : Nat := 30000
  deriving DecidableEq, Repr

/-- What to do after a message. -/
inductive Reaction
  | send (message : Message)
  | resend (message : Message)
  | halt (message : Message)
  | ignore
  deriving DecidableEq, Repr

namespace Reaction

/-- The message that a reaction puts on the wire. -/
def message? : Reaction → Option Message
  | .send message | .resend message | .halt message => some message
  | .ignore => none

end Reaction

/-- A party at work. -/
structure Machine (S L ρ : Type) where
  table : StepTable S L ρ
  policy : RetryPolicy
  state : S
  /-- The party's own data. -/
  data : L
  /-- The last message sent, until the party halts. -/
  outbound : Option Message := none
  /-- How often the last message has been sent once more. -/
  attempts : UInt32 := 0
  halted : Bool := false

/-- What comes of handing one message to a machine. -/
structure Delivery (S L ρ : Type) where
  outcome : Except (Failure PartyError) Reaction
  machine : Machine S L ρ
  source : ρ

namespace Machine

variable {S L ρ : Type}

/-- A machine before its first message. -/
def start (table : StepTable S L ρ) (data : L) (policy : RetryPolicy) : Machine S L ρ :=
  { table, policy, state := table.initial, data }

/-- What the machine does once its action has decided. Any decision ends the attempts. -/
def follow (machine : Machine S L ρ) : Next S → Reaction × Machine S L ρ
  | .send message state =>
      (.send message, { machine with state, outbound := some message, attempts := 0 })
  | .halt message =>
      (.halt message, { machine with outbound := none, attempts := 0, halted := true })

variable [ToString S]

/-- Sends the last message once more, unless that has been done as often as the policy allows. -/
def retry (machine : Machine S L ρ) (message : Message) :
    Except (Failure PartyError) Reaction × Machine S L ρ :=
  if machine.policy.maxAttempts ≤ machine.attempts then
    (.error (.error (.timeout (toString machine.state) machine.attempts)), machine)
  else (.ok (.resend message), { machine with attempts := machine.attempts + 1 })

/-- Hands a message to a machine. After it has halted every message is ignored. The trigger of the
current step fires its action, also where it is the retry tag as well; the retry tag re-sends the
last message; any other tag is ignored. -/
def onMessage [DecidableEq S] (machine : Machine S L ρ) (source : ρ) (message : Message) :
    Delivery S L ρ :=
  if machine.halted then ⟨.ok .ignore, machine, source⟩
  else
    match machine.table.get? machine.state with
    | none => ⟨.error (.error (.unknownState (toString machine.state))), machine, source⟩
    | some step =>
        if message.tag = step.trigger then
          match step.action message (machine.data, source) with
          | .error failure (data, source) => ⟨.error failure, { machine with data }, source⟩
          | .ok next (data, source) =>
              let (reaction, machine) := { machine with data }.follow next
              ⟨.ok reaction, machine, source⟩
        else
          match machine.outbound with
          | some outbound =>
              if step.retryOn = some message.tag then
                let (outcome, machine) := machine.retry outbound
                ⟨outcome, machine, source⟩
              else ⟨.ok .ignore, machine, source⟩
          | none => ⟨.ok .ignore, machine, source⟩

end Machine

end CipherRelay.Party
