import CipherRelay.Mailbox.Server
/-!
Several callers at one mailbox server. Every caller makes one call at a time: it sends the request
and waits for the answer. The server takes the requests in the order in which they have been sent
and executes them one at a time, up to a shutdown; then it takes none any more and leaves. What has
been sent and not been executed by then is lost with the server, and who waits for an answer to it
is told so. How the callers and the server take turns is left open.
-/
namespace CipherRelay.Mailbox

/-- Reads the answer to a request. What is read has the form of the request. -/
def Client.read : Request → Option Reply → Reply
  | .store _ _ _, reply => .store (stored reply)
  | .fetch _ _, reply => .fetch (fetched reply)
  | .fetchMany _ _, reply => .fetchMany (fetchedMany reply)
  | .clearRole _ _, reply => .clearRole (cleared reply)
  | .shutdown, reply => .shutdown (shutDown reply)

/-- What a caller is doing. -/
inductive Phase
  /-- It makes no call. -/
  | idle
  /-- It has a request to send. -/
  | sending (request : Request)
  /-- It has sent the request. -/
  | waiting (request : Request)
  /-- The answer is there to be read, or it is known that none will come. -/
  | told (request : Request) (reply : Option Reply)

/-- A caller, and what it has read in answer to its requests. -/
structure Caller where
  phase : Phase := .idle
  answers : List (Request × Reply) := []

/-- A server and its callers. -/
structure Desk where
  server : Server := .start
  /-- Whether requests still reach the server, or at least the place where it would take them. -/
  isOpen : Bool := true
  callers : List Caller
  /-- The callers whose requests have been sent and not been taken, the one that is next first. -/
  queue : List Nat := []
  /-- What the server has executed, in this order and for whom. -/
  log : List (Nat × Request) := []

namespace Desk

/-- A server with an empty mailbox and a number of callers. -/
def start (count : Nat) : Desk where
  callers := List.replicate count {}

def setCaller (desk : Desk) (i : Nat) (caller : Caller) : Desk :=
  { desk with callers := desk.callers.set i caller }

/-- A caller that makes no call starts one. -/
def call? (desk : Desk) (i : Nat) (request : Request) : Option Desk := do
  let caller ← desk.callers[i]?
  let .idle := caller.phase | none
  return desk.setCaller i { caller with phase := .sending request }

/-- A caller sends its request. It learns at once that the server has left. -/
def send? (desk : Desk) (i : Nat) : Option Desk := do
  let caller ← desk.callers[i]?
  let .sending request := caller.phase | none
  if desk.isOpen then
    return { desk.setCaller i { caller with phase := .waiting request } with
      queue := desk.queue ++ [i] }
  else return desk.setCaller i { caller with phase := .told request none }

/-- The server executes the request that is next. -/
def execute? (desk : Desk) : Option Desk := do
  let .running store := desk.server | none
  let i :: queue := desk.queue | none
  let caller ← desk.callers[i]?
  let .waiting request := caller.phase | none
  let (reply, server) := Server.serve store request
  return { desk.setCaller i { caller with phase := .told request (some reply) } with
    server := server
    queue := queue
    log := desk.log ++ [(i, request)] }

/-- A server that has shut down leaves. -/
def close? (desk : Desk) : Option Desk :=
  if desk.server = .stopped ∧ desk.isOpen then some { desk with isOpen := false } else none

/-- A request that the server has left behind is lost. -/
def drop? (desk : Desk) : Option Desk := do
  let i :: queue := desk.queue | none
  let caller ← desk.callers[i]?
  let .waiting request := caller.phase | none
  if desk.isOpen then none
  else return { desk.setCaller i { caller with phase := .told request none } with queue := queue }

/-- A caller reads its answer. -/
def hear? (desk : Desk) (i : Nat) : Option Desk := do
  let caller ← desk.callers[i]?
  let .told request reply := caller.phase | none
  return desk.setCaller i {
    phase := .idle
    answers := caller.answers ++ [(request, Client.read request reply)] }

/-- What can happen. -/
inductive Event
  /-- A caller starts a call. -/
  | call (caller : Nat) (request : Request)
  /-- A caller sends its request. -/
  | send (caller : Nat)
  /-- The server executes a request. -/
  | execute
  /-- The server leaves. -/
  | close
  /-- A request is lost. -/
  | drop
  /-- A caller reads its answer. -/
  | hear (caller : Nat)

/-- The desk after an event, if the event is possible. -/
def step? (desk : Desk) : Event → Option Desk
  | .call i request => desk.call? i request
  | .send i => desk.send? i
  | .execute => desk.execute?
  | .close => desk.close?
  | .drop => desk.drop?
  | .hear i => desk.hear? i

/-- The desk after several events, if they are possible one after another. -/
def follow? (start : Desk) (events : List Event) : Option Desk :=
  events.foldlM step? start

end Desk

end CipherRelay.Mailbox
