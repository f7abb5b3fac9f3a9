import CipherRelay.Party.Connection
/-!
A connection at work. A reader works beside the party: it takes what has arrived off the stream, in
pieces of any length, and queues the messages that they complete, until the stream ends, reading
fails or a header announces too long a body. The party takes the messages out of the queue, and it
may wait for one or not. How the arrivals, the reader and the party take turns is left open.
-/
namespace CipherRelay.Party

/-- A connection, the stream that is read for it and what the party has been answered. -/
structure Link where
  connection : Connection
  /-- What has arrived and not been read. -/
  unread : Bytes := []
  /-- Whether nothing more will arrive. -/
  hasEnded : Bool := false
  /-- What has been read. -/
  taken : Bytes := []
  /-- What the party's calls have returned, the first one first. -/
  answers : List (Except PartyError (Option Message)) := []

namespace Link

/-- A connection that has just been made. -/
def start (session : SessionId) : Link where
  connection := { session }

/-- Bytes arrive, unless the stream has ended. -/
def arrive (link : Link) (chunk : Bytes) : Link :=
  if link.hasEnded then link else { link with unread := link.unread ++ chunk }

/-- The stream ends behind what has arrived. -/
def finish (link : Link) : Link :=
  { link with hasEnded := true }

/-- Reading fails. What has not been read is lost, and the reader leaves. -/
def fail (link : Link) : Link :=
  { link with connection := link.connection.finish, unread := [], hasEnded := true }

/-- The reader's turn. It takes up to `count + 1` bytes, down to one at a time; at the end of the
stream it leaves. A reader that has left takes nothing. -/
def read (link : Link) (count : Nat) : Link :=
  if link.connection.isOpen then
    match link.unread with
    | [] => if link.hasEnded then { link with connection := link.connection.finish } else link
    | _ :: _ =>
        { link with
          connection := link.connection.arrive (link.unread.take (count + 1))
          unread := link.unread.drop (count + 1)
          taken := link.taken ++ link.unread.take (count + 1) }
  else link

/-- How a party asks for a message. -/
inductive Call
  /-- It takes one that is there. -/
  | poll
  /-- It waits for one. -/
  | receive

/-- A call, or a party that waits looks again. It goes on waiting without an answer. -/
def call (link : Link) : Call → Link
  | .poll =>
      let (answer, connection) := link.connection.poll
      { link with connection, answers := link.answers ++ [answer] }
  | .receive =>
      match link.connection.receive? with
      | some (answer, connection) =>
          { link with connection, answers := link.answers ++ [answer.map some] }
      | none => link

/-- What can happen. -/
inductive Event
  /-- Bytes arrive. -/
  | arrive (chunk : Bytes)
  /-- The stream ends. -/
  | finish
  /-- Reading fails. -/
  | fail
  /-- The reader takes a turn. -/
  | read (count : Nat)
  /-- The party asks for a message. -/
  | call (call : Call)

/-- The link after an event. -/
def step (link : Link) : Event → Link
  | .arrive chunk => link.arrive chunk
  | .finish => link.finish
  | .fail => link.fail
  | .read count => link.read count
  | .call call => link.call call

/-- The link after several events. -/
def after (link : Link) (events : List Event) : Link :=
  events.foldl step link

end Link

end CipherRelay.Party
