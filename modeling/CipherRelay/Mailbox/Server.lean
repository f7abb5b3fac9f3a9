import CipherRelay.Mailbox.Store
/-!
The server that owns the mailbox. It executes one request at a time and answers it; after a shutdown
no request is answered any more. A client sends a request and reads the answer: a missing answer
means that the server is gone, and an answer to another kind of request is refused.
-/
namespace CipherRelay.Mailbox

/-- What a client can ask for. -/
inductive Request
  | store (session : SessionId) (kind : ArtifactKind) (payload : Bytes)
  | fetch (session : SessionId) (kind : ArtifactKind)
  | fetchMany (session : SessionId) (kinds : List ArtifactKind)
  | clearRole (session : SessionId) (role : Role)
  | shutdown
  deriving DecidableEq

/-- An answer, one form for each kind of request. -/
inductive Reply
  | store (status : Except StoreError Unit)
  | fetch (status : Except StoreError Bytes)
  | fetchMany (status : Except StoreError (List (Option Bytes)))
  | clearRole (status : Except StoreError Nat)
  | shutdown (status : Except StoreError Unit)

/-- A server with its mailbox, or one that has shut down. -/
inductive Server
  | running (store : Store)
  | stopped
  deriving DecidableEq

namespace Server

/-- A server with an empty mailbox. -/
def start : Server := .running .empty

/-- Executes a request on a mailbox. -/
def serve (store : Store) : Request → Reply × Server
  | .store session kind payload =>
      match store.put session kind payload with
      | .ok store => (.store (.ok ()), .running store)
      | .error error => (.store (.error error), .running store)
  | .fetch session kind => (.fetch (store.fetch session kind), .running store)
  | .fetchMany session kinds => (.fetchMany (.ok (store.fetchMany session kinds)), .running store)
  | .clearRole session role =>
      let kept := store.clear session role
      (.clearRole (.ok (store.size - kept.size)), .running kept)
  | .shutdown => (.shutdown (.ok ()), .stopped)

/-- Hands a request to the server. -/
def execute (server : Server) (request : Request) : Option Reply × Server :=
  match server with
  | .running store =>
      let (reply, server) := serve store request
      (some reply, server)
  | .stopped => (none, .stopped)

/-- The payload of a slot, as far as the server still has it. -/
def get? (server : Server) (session : SessionId) (kind : ArtifactKind) : Option Bytes :=
  match server with
  | .running store => store.get? session kind
  | .stopped => none

end Server

namespace Client

/-- Reads the answer to a store request. -/
def stored : Option Reply → Except StoreError Unit
  | some (.store status) => status
  | some _ => .error .unexpectedResponse
  | none => .error .storeShutdown

/-- Reads the answer to a fetch request. -/
def fetched : Option Reply → Except StoreError Bytes
  | some (.fetch status) => status
  | some _ => .error .unexpectedResponse
  | none => .error .storeShutdown

/-- Reads the answer to a request for several slots. -/
def fetchedMany : Option Reply → Except StoreError (List (Option Bytes))
  | some (.fetchMany status) => status
  | some _ => .error .unexpectedResponse
  | none => .error .storeShutdown

/-- Reads the answer to a request to clear a role. -/
def cleared : Option Reply → Except StoreError Nat
  | some (.clearRole status) => status
  | some _ => .error .unexpectedResponse
  | none => .error .storeShutdown

/-- Reads the answer to a shutdown. -/
def shutDown : Option Reply → Except StoreError Unit
  | some (.shutdown status) => status
  | some _ => .error .unexpectedResponse
  | none => .error .storeShutdown

end Client

end CipherRelay.Mailbox
