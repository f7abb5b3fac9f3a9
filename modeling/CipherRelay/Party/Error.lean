import CipherRelay.Scheme.Context
/-!
What can go wrong for a party: with its connection, with its step table, with what its steps need,
or with the scheme.
-/
namespace CipherRelay.Party

open Scheme (EngineError)

/-- Why a party's run fails. -/
inductive PartyError
  | connection (reason : String)
  | connectionClosed
  | timeout (state : String) (attempts : UInt32)
  | preconditionViolation (reason : String)
  | unknownState (state : String)
  | missingLocalState (item : String)
  | unexpectedTag (tag : String)
  | cancelled
  | engine (cause : EngineError)
  deriving DecidableEq, Repr

namespace PartyError

/-- The name of the kind of error, among the errors of a party. -/
def variantName : PartyError → String
  | .connection _ => "Connection"
  | .connectionClosed => "ConnectionClosed"
  | .timeout _ _ => "Timeout"
  | .preconditionViolation _ => "PreconditionViolation"
  | .unknownState _ => "UnknownState"
  | .missingLocalState _ => "MissingLocalState"
  | .unexpectedTag _ => "UnexpectedTag"
  | .cancelled => "Cancelled"
  | .engine _ => "Engine"

/-- The name of the kind of error. An error of the scheme keeps its own. -/
def name : PartyError → String
  | .engine cause => cause.name
  | error => error.variantName

/-- The wording of an error. An error of the scheme keeps its own. -/
def message : PartyError → String
  | .connection reason => "Party: cannot reach relay: " ++ reason
  | .connectionClosed => "Party: relay closed the connection"
  | .timeout state attempts =>
      "Party: gave up waiting in " ++ state ++ " after " ++ toString attempts ++ " attempts"
  | .preconditionViolation reason => "Party: precondition violated: " ++ reason
  | .unknownState state => "Party: no step registered for state " ++ state
  | .missingLocalState item => "Party: " ++ item ++ " not available yet"
  | .unexpectedTag tag => "Party: unexpected tag " ++ tag
  | .cancelled => "Party: cancelled"
  | .engine cause => cause.message

/-- The JSON form of an error. -/
def write (error : PartyError) : Json :=
  match error with
  | .connection text | .preconditionViolation text | .unknownState text
  | .missingLocalState text | .unexpectedTag text => .variant error.variantName (toJson text)
  | .connectionClosed | .cancelled => .bareVariant error.variantName
  | .timeout state attempts =>
      .variant error.variantName
        (.record [("state", toJson state), ("attempts", toJson attempts)])
  | .engine cause => .variant error.variantName (toJson cause)

/-- The error of a JSON form. -/
def read? (value : Json) : Option PartyError :=
  match value.variant? with
  | some ("Connection", some text) => (ofJson? text).map connection
  | some ("PreconditionViolation", some text) => (ofJson? text).map preconditionViolation
  | some ("UnknownState", some text) => (ofJson? text).map unknownState
  | some ("MissingLocalState", some text) => (ofJson? text).map missingLocalState
  | some ("UnexpectedTag", some text) => (ofJson? text).map unexpectedTag
  | some ("Timeout", some data) => do
      let [state, attempts] ← data.fields? ["state", "attempts"] | none
      return .timeout (← ofJson? state) (← ofJson? attempts)
  | some ("Engine", some cause) => (ofJson? cause).map engine
  | _ => value.bareVariant?.bind (named? variantName [connectionClosed, cancelled])

end PartyError

instance : Artifact PartyError := ⟨PartyError.write, PartyError.read?⟩

end CipherRelay.Party
