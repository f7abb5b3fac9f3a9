import CipherRelay.Mailbox.Server
import CipherRelay.Relay.Error
import CipherRelay.Scheme.KeyGeneration
/-!
Handlers, one for each kind of service that the relay does. A handler first decides what to ask of
the mailbox, if anything, and then works out the reply from the mailbox's answer. So each message
costs one request at most, and the replies of several connections are settled by the order in which
the mailbox executes their requests.
-/
namespace CipherRelay.Relay

open Mailbox
open Scheme (Context EngineError PrivateKey PublicKey SwitchKey)

/-- The services of the relay. -/
inductive Handler
  /-- Keeps the payload, whatever the slot held before. -/
  | storeArtifact
  /-- Answers with the payload of a slot, or that it is absent. -/
  | fetchArtifact
  /-- Answers with the context of the relay. -/
  | serveContext
  /-- Answers with a key that switches from the producer's secret to the consumer. -/
  | deriveReEncryptionKey
  /-- Clears what a role owns in the session. -/
  | clearRole
  deriving DecidableEq, Repr

namespace Handler

/-- What a handler does with a message. -/
inductive Plan
  /-- Answers at once. -/
  | done (reply : Option Message)
  /-- Asks the mailbox first. -/
  | ask (request : Mailbox.Request)
  deriving DecidableEq

/-- The artifact that a tag talks about, or the error that it names none. -/
def artifactOf (tag : Tag) : Except RelayError ArtifactKind :=
  match tag.artifact? with
  | some kind => .ok kind
  | none => .error (.failToDecode (tag.text ++ " names no artifact"))

/-- What a handler does first. The keys for a derivation are asked for together, so that they are
looked at in one moment. -/
def begin (handler : Handler) (cc : Context) (session : SessionId) (message : Message) :
    Except RelayError Plan :=
  match handler with
  | .storeArtifact => do
      let kind ← artifactOf message.tag
      return .ask (.store session kind message.payload)
  | .fetchArtifact => do
      let kind ← artifactOf message.tag
      return .ask (.fetch session kind)
  | .serveContext => return .done (some (.send .cryptoContext (Artifact.encode cc)))
  | .deriveReEncryptionKey => return .ask (.fetchMany session [.privateKey, .publicKey])
  | .clearRole =>
      match message.tag with
      | .disconnect role => return .ask (.clearRole session role)
      | _ => return .done none

variable {ρ : Type}

/-- The answer of the mailbox, or its error as an error of the relay. -/
def settled {α : Type} (status : Except StoreError α) : Draw ρ RelayError α := fun state =>
  match status with
  | .ok value => .ok value state
  | .error error => .error (.error (.store error)) state

/-- The reply that carries a fetched payload. Only an absent slot is answered too; any other error
of the mailbox is an error of the relay. -/
def fetchReply (kind : ArtifactKind) :
    Except StoreError Bytes → Draw ρ RelayError (Option Message)
  | .ok payload => return some (.send kind payload)
  | .error (.artifactNotReady _) => return some (.bare (.nack kind))
  | .error error => settled (.error error)

variable [RandomSource ρ]

/-- The key derived from the payloads of a private and a public key. -/
def derive (cc : Context) (source target : Bytes) : Draw ρ EngineError SwitchKey := do
  let source : PrivateKey ← Scheme.decode source
  let target : PublicKey ← Scheme.decode target
  cc.reKeyGen source target

/-- The reply to a request for a derived key. Whatever is wrong with the keys, they count as not yet
there. -/
def derivation (cc : Context) (keys : List (Option Bytes)) : Draw ρ RelayError (Option Message) :=
  match keys with
  | [some source, some target] => fun state =>
      match derive cc source target state with
      | .ok key state => .ok (some (.send .reEncryptionKey (Artifact.encode key))) state
      | .error (.error _) state => .ok (some (.bare (.nack .reEncryptionKey))) state
      | .error (.crash crash) state => .error (.crash crash) state
  | _ => return some (.bare (.nack .reEncryptionKey))

/-- What a handler replies once the mailbox has answered. -/
def finish (handler : Handler) (cc : Context) (message : Message)
    (answer : Option Mailbox.Reply) : Draw ρ RelayError (Option Message) := do
  match handler, message.tag.artifact? with
  | .storeArtifact, some kind => do
      settled (Client.stored answer)
      return some (.bare (.ack kind))
  | .fetchArtifact, some kind => fetchReply kind (Client.fetched answer)
  | .deriveReEncryptionKey, _ => do
      let keys ← settled (Client.fetchedMany answer)
      derivation cc keys
  | .clearRole, _ => do
      let _ ← settled (Client.cleared answer)
      return none
  | _, _ => return none

end Handler

/-- The handlers and the tags that call for them. -/
def dispatchTable : List (Tag × Handler) :=
  ArtifactKind.stored.flatMap (fun kind =>
    [(.send kind, .storeArtifact), (.request kind, .fetchArtifact)]) ++
  [(.request .cryptoContext, .serveContext),
    (.request .reEncryptionKey, .deriveReEncryptionKey)] ++
  Role.all.map fun role => (.disconnect role, .clearRole)

/-- The handler that a tag calls for. Replies call for none. -/
def handler? (tag : Tag) : Option Handler :=
  (dispatchTable.find? fun entry => entry.1 = tag).map (·.2)

end CipherRelay.Relay
