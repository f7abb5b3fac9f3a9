import CipherRelay.Party.Machine
/-!
A party's run over a line to its peer. The party waits for a message, hands it to its machine, and
sends what the machine answers; a message that is sent once more waits for the backoff first. The
run ends when the machine halts, with the first error, when a reply takes too long, or when it is
cancelled. The line is given by what it will deliver, and time passes only while the party waits. A
pause, before a re-send or before a message arrives, takes thirty years at most; a party that is
patient enough waits for a reply without that limit.
-/
namespace CipherRelay.Party

/-- The longest pause in milliseconds, thirty years of 365 days. No part of the relay or of a party
sets it: it is the length to which the timer that they sleep on cuts a longer sleep. -/
def longestPause : Nat := 30 * 365 * 86400 * 1000

/-- How long a pause takes that is meant to take `length` milliseconds. -/
def pause (length : Nat) : Nat := min length longestPause

/-- A message on its way. It arrives after a pause of `delay` milliseconds, which begins when the
party starts to wait for it. -/
structure Arrival where
  message : Message
  delay : Nat := 0
  deriving DecidableEq, Repr

/-- What a line does once it has nothing more to deliver. -/
inductive Dry
  | closed
  | silent
  deriving DecidableEq, Repr

/-- A line: what is waiting, what each message sent will be answered with, and how it may fail. -/
structure Line where
  inbound : List Arrival := []
  replies : List (List Arrival) := []
  dry : Dry := .closed
  /-- After how many messages the next one cannot be sent. -/
  brokenAfter : Option Nat := none
  /-- The error of a message that cannot be sent. -/
  breakage : PartyError := .connection "broken pipe"
  /-- The messages sent and the times at which they were, latest first. -/
  sent : List (Nat × Message) := []
  deriving DecidableEq, Repr

namespace Line

/-- How many messages the line can still deliver. -/
def remaining (line : Line) : Nat :=
  line.inbound.length + line.replies.flatten.length

/-- Sends a message. Its replies join the end of what is waiting. -/
def send (line : Line) (now : Nat) (message : Message) : Except PartyError Line :=
  if line.brokenAfter = some line.sent.length then .error line.breakage
  else .ok
    { line with
      inbound := line.inbound ++ line.replies.head?.getD []
      replies := line.replies.tail
      sent := (now, message) :: line.sent }

/-- Sending moves messages from the replies to what is waiting. -/
theorem remaining_send {line after : Line} {now : Nat} {message : Message}
    (h : line.send now message = .ok after) : after.remaining = line.remaining := by
  unfold send at h
  split at h
  · cases h
  · cases h
    cases hReplies : line.replies with
    | nil => simp [remaining, hReplies]
    | cons first rest => simp [remaining, hReplies]; omega

end Line

/-- How a run ended: with the party's data or with a failure, and when. -/
structure Ending (L ρ : Type) where
  result : Except (Failure PartyError) L
  line : Line
  elapsed : Nat
  source : ρ

/-- When a signal interrupts a wait from `now` to `due`: as soon as it has been given, if that is
before the wait is over. -/
def interrupt? (signal : Option Nat) (now due : Nat) : Option Nat :=
  match signal with
  | some time => if max time now < due then some (max time now) else none
  | none => none

namespace Machine

variable {S L ρ : Type}

/-- What a run does next. -/
inductive Course (S L ρ : Type)
  | go (machine : Machine S L ρ) (line : Line) (now : Nat) (source : ρ)
  | stop (ending : Ending L ρ)

/-- A run that ends with an error. -/
def abandon (error : PartyError) (line : Line) (now : Nat) (source : ρ) : Course S L ρ :=
  .stop ⟨.error (.error error), line, now, source⟩

/-- Sends a message and goes on, or stops if it cannot be sent. -/
def transmit (machine : Machine S L ρ) (line : Line) (now : Nat) (source : ρ)
    (message : Message) : Course S L ρ :=
  match line.send now message with
  | .ok line => .go machine line now source
  | .error error => abandon error line now source

/-- What a run does with a reaction. -/
def proceed (signal : Option Nat) (machine : Machine S L ρ) (line : Line) (now : Nat)
    (source : ρ) : Reaction → Course S L ρ
  | .ignore => .go machine line now source
  | .send message => machine.transmit line now source message
  | .resend message =>
      match interrupt? signal now (now + pause machine.policy.backoff) with
      | some time => abandon .cancelled line time source
      | none => machine.transmit line (now + pause machine.policy.backoff) source message
  | .halt message =>
      match line.send now message with
      | .ok line => .stop ⟨.ok machine.data, line, now, source⟩
      | .error error => abandon error line now source

/-- Sending delivers nothing. -/
theorem remaining_transmit {machine after : Machine S L ρ} {line rest : Line} {now later : Nat}
    {source source' : ρ} {message : Message}
    (h : machine.transmit line now source message = .go after rest later source') :
    rest.remaining = line.remaining := by
  unfold transmit at h
  split at h
  case h_1 hSend =>
    cases h
    exact Line.remaining_send hSend
  case h_2 => cases h

/-- Following a reaction delivers nothing. -/
theorem remaining_proceed {signal : Option Nat} {machine after : Machine S L ρ}
    {line rest : Line} {now later : Nat} {source source' : ρ} {reaction : Reaction}
    (h : machine.proceed signal line now source reaction = .go after rest later source') :
    rest.remaining = line.remaining := by
  unfold proceed at h
  split at h
  · cases h; rfl
  · exact remaining_transmit h
  · split at h
    · cases h
    · exact remaining_transmit h
  · split at h <;> cases h

/-- When the machine gives up a wait that starts at `now`. -/
def deadline (machine : Machine S L ρ) (now : Nat) : Nat :=
  now + machine.policy.replyTimeout

variable [ToString S]

/-- The error of a machine that has waited too long. -/
def impatience (machine : Machine S L ρ) : PartyError :=
  .timeout (toString machine.state) machine.attempts

variable [DecidableEq S]

/-- Hands an arrived message to the machine and does what it answers. -/
def receive (signal : Option Nat) (machine : Machine S L ρ) (line : Line) (now : Nat)
    (source : ρ) (message : Message) : Course S L ρ :=
  match machine.onMessage source message with
  | ⟨.error failure, _, source⟩ => .stop ⟨.error failure, line, now, source⟩
  | ⟨.ok reaction, machine, source⟩ => machine.proceed signal line now source reaction

/-- One turn of a run: the wait for a message, and what comes of it. -/
def turn (signal : Option Nat) (machine : Machine S L ρ) (line : Line) (now : Nat)
    (source : ρ) : Course S L ρ :=
  match line.inbound with
  | [] =>
      match line.dry with
      | .closed => abandon .connectionClosed line now source
      | .silent =>
          match interrupt? signal now (machine.deadline now) with
          | some time => abandon .cancelled line time source
          | none => abandon machine.impatience line (machine.deadline now) source
  | arrival :: rest =>
      match interrupt? signal now (min (now + pause arrival.delay) (machine.deadline now)) with
      | some time => abandon .cancelled line time source
      | none =>
          if machine.deadline now < now + pause arrival.delay then
            abandon machine.impatience line (machine.deadline now) source
          else
            machine.receive signal { line with inbound := rest } (now + pause arrival.delay) source
              arrival.message

/-- Once a message has arrived nothing more is delivered before the next wait. -/
theorem remaining_receive {signal : Option Nat} {machine after : Machine S L ρ}
    {line rest : Line} {now later : Nat} {source source' : ρ} {message : Message}
    (h : machine.receive signal line now source message = .go after rest later source') :
    rest.remaining = line.remaining := by
  unfold receive at h
  split at h
  · cases h
  · exact remaining_proceed h

/-- A turn after which the run goes on has taken a message off the line. -/
theorem remaining_turn {signal : Option Nat} {machine after : Machine S L ρ} {line rest : Line}
    {now later : Nat} {source source' : ρ}
    (h : machine.turn signal line now source = .go after rest later source') :
    rest.remaining < line.remaining := by
  unfold turn at h
  split at h
  · split at h
    · cases h
    · split at h <;> cases h
  case h_2 arrival waiting hInbound =>
    split at h
    · cases h
    · split at h
      · cases h
      · rw [remaining_receive h]
        simp [Line.remaining, hInbound]

/-- Runs a machine over a line, from the time `now` on. A signal cancels the run when it is given
while the party waits. -/
def run (signal : Option Nat) (machine : Machine S L ρ) (line : Line) (now : Nat) (source : ρ) :
    Ending L ρ :=
  match _ : machine.turn signal line now source with
  | .stop ending => ending
  | .go machine line now source => run signal machine line now source
  termination_by line.remaining
  decreasing_by exact remaining_turn (by assumption)

end Machine

end CipherRelay.Party
