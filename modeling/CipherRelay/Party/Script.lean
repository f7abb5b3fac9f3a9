import CipherRelay.Party.Machine
/-!
Scripted parties. Their states are numbers, and every step has the same action: it takes the next
entry of a queue and does what the entry says. They show what a machine does whatever its role.
-/
namespace CipherRelay.Party

/-- What one action of a scripted party does. -/
inductive Entry
  | send (message : Message) (state : UInt32)
  | halt (message : Message)
  | fail (reason : String)
  deriving DecidableEq, Repr

/-- How many actions have fired, and what the next ones do. -/
structure Script where
  fired : Nat := 0
  queue : List Entry := []
  deriving DecidableEq, Repr

namespace Script

variable {ρ : Type}

/-- Counts itself and does what the first entry of the queue says. -/
def act (_ : Message) : Action Script ρ (Next UInt32) := do
  .change fun script => { script with fired := script.fired + 1 }
  let script ← .data
  match script.queue with
  | [] => .fail (.missingLocalState "action")
  | entry :: rest => do
      .change fun script => { script with queue := rest }
      match entry with
      | .send message state => return .send message state
      | .halt message => return .halt message
      | .fail reason => .fail (.preconditionViolation reason)

/-- A step that fires on one tag and may re-send on another. -/
def step (trigger : Tag) (retryOn : Option Tag) : Step UInt32 Script ρ :=
  { trigger, action := act, retryOn }

/-- The table with the given states, triggers and retry tags. -/
def table (initial : UInt32) (steps : List (UInt32 × Tag × Option Tag)) :
    StepTable UInt32 Script ρ :=
  StepTable.extend ⟨initial, []⟩ (steps.map fun (state, trigger, retryOn) =>
    (state, step trigger retryOn))

end Script

end CipherRelay.Party
