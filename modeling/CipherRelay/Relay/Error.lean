import CipherRelay.Mailbox.Store
import CipherRelay.Scheme.Context
/-!
What can go wrong at the relay and on the way to it. Errors of the mailbox and of the scheme keep
their own names and words.
-/
namespace CipherRelay.Relay

open Mailbox (StoreError)
open Scheme (EngineError)

/-- Why the relay fails. -/
inductive RelayError
  | failToConnect (reason : String)
  | failToListen (reason : String)
  | failToDecode (reason : String)
  | failToEncode (reason : String)
  | io (reason : String)
  | connectionClosed
  | invalidSetting (name reason : String)
  | store (cause : StoreError)
  | engine (cause : EngineError)
  deriving DecidableEq, Repr

namespace RelayError

/-- The name of the kind of error, among the errors of the relay. -/
def variantName : RelayError → String
  | .failToConnect _ => "FailToConnect"
  | .failToListen _ => "FailToListenOnPort"
  | .failToDecode _ => "FailToDecodeFrame"
  | .failToEncode _ => "FailToEncodeFrame"
  | .io _ => "Io"
  | .connectionClosed => "ConnectionClosed"
  | .invalidSetting _ _ => "InvalidConfig"
  | .store _ => "Store"
  | .engine _ => "Engine"

/-- The name of the kind of error. An error of the mailbox or of the scheme keeps its own. -/
def name : RelayError → String
  | .store cause => cause.name
  | .engine cause => cause.name
  | error => error.variantName

/-- The wording of an error. An error of the mailbox or of the scheme keeps its own. -/
def message : RelayError → String
  | .failToConnect reason => "Node: failed to connect to " ++ reason
  | .failToListen reason => "Node: failed to listen on " ++ reason
  | .failToDecode reason => "Node: malformed frame: " ++ reason
  | .failToEncode reason => "Node: failed to encode frame: " ++ reason
  | .io reason => "Node: io error: " ++ reason
  | .connectionClosed => "Node: connection closed"
  | .invalidSetting name reason => "Node: invalid configuration " ++ name ++ ": " ++ reason
  | .store cause => cause.message
  | .engine cause => cause.message

/-- The JSON form of an error. -/
def write (error : RelayError) : Json :=
  match error with
  | .failToConnect text | .failToListen text | .failToDecode text | .failToEncode text
  | .io text => .variant error.variantName (toJson text)
  | .connectionClosed => .bareVariant error.variantName
  | .invalidSetting name reason =>
      .variant error.variantName (.record [("name", toJson name), ("reason", toJson reason)])
  | .store cause => .variant error.variantName (toJson cause)
  | .engine cause => .variant error.variantName (toJson cause)

/-- The error of a JSON form. -/
def read? (value : Json) : Option RelayError :=
  match value.variant? with
  | some ("FailToConnect", some text) => (ofJson? text).map failToConnect
  | some ("FailToListenOnPort", some text) => (ofJson? text).map failToListen
  | some ("FailToDecodeFrame", some text) => (ofJson? text).map failToDecode
  | some ("FailToEncodeFrame", some text) => (ofJson? text).map failToEncode
  | some ("Io", some text) => (ofJson? text).map io
  | some ("InvalidConfig", some data) => do
      let [name, reason] ← data.fields? ["name", "reason"] | none
      return .invalidSetting (← ofJson? name) (← ofJson? reason)
  | some ("Store", some cause) => (ofJson? cause).map store
  | some ("Engine", some cause) => (ofJson? cause).map engine
  | _ => value.bareVariant?.bind (named? variantName [connectionClosed])

end RelayError

instance : Artifact RelayError := ⟨RelayError.write, RelayError.read?⟩

end CipherRelay.Relay
