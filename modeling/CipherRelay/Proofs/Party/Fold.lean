import CipherRelay.Party.Run
import CipherRelay.Proofs.Party.History
import Mathlib.Data.List.Induction
/-!
Messages fed to a machine one after another, with no line in between, and the line by itself: what
it has delivered once some messages have been sent on it. A run brings the two together.
-/
namespace CipherRelay.Party

/-- The message that comes of a message, if one does. -/
def answer? : Upshot → Option Message
  | .ok reaction => reaction.message?
  | .error _ => none

/-- Whether a run goes on after what came of a message. -/
def continues : Upshot → Bool
  | .ok (.halt _) | .error _ => false
  | .ok _ => true

/-- How long a run waits before it sends what came of a message. -/
def respite (policy : RetryPolicy) : Upshot → Nat
  | .ok (.resend _) => pause policy.backoff
  | _ => 0

/-- How long a run takes over a message. -/
def turnTime (policy : RetryPolicy) (arrival : Arrival) (upshot : Upshot) : Nat :=
  pause arrival.delay + respite policy upshot

/-- What has come of each of the messages fed to a machine, and where that has led. -/
structure Fed (S L ρ : Type) where
  upshots : List Upshot
  machine : Machine S L ρ
  source : ρ

variable {S L ρ : Type} [DecidableEq S] [ToString S]

/-- Feeds one more message. -/
def Fed.hear (fed : Fed S L ρ) (message : Message) : Fed S L ρ :=
  let delivery := fed.machine.onMessage fed.source message
  ⟨fed.upshots ++ [delivery.outcome], delivery.machine, delivery.source⟩

namespace Machine

/-- Feeds messages to a machine in the order in which they arrive. -/
def fold (machine : Machine S L ρ) (source : ρ) (heard : List Arrival) : Fed S L ρ :=
  (heard.map Arrival.message).foldl Fed.hear ⟨[], machine, source⟩

/-- How long a run takes over some messages. -/
def runTime (machine : Machine S L ρ) (source : ρ) (heard : List Arrival) : Nat :=
  (List.zipWith (turnTime machine.policy) heard (machine.fold source heard).upshots).foldl
    (· + ·) 0

variable {machine : Machine S L ρ} {source : ρ} {heard : List Arrival}

/-- One more message is fed to what the others have led to. -/
theorem fold_concat (machine : Machine S L ρ) (source : ρ) (heard : List Arrival)
    (arrival : Arrival) : machine.fold source (heard ++ [arrival]) =
      (machine.fold source heard).hear arrival.message := by
  rw [fold, List.map_append, List.foldl_append]
  rfl

theorem length_upshots (heard : List Arrival) :
    (machine.fold source heard).upshots.length = heard.length := by
  induction heard using List.reverseRecOn with
  | nil => rfl
  | append_singleton heard arrival ih => simp [fold_concat, Fed.hear, ih]

theorem policy_fold (heard : List Arrival) :
    (machine.fold source heard).machine.policy = machine.policy := by
  induction heard using List.reverseRecOn with
  | nil => rfl
  | append_singleton heard arrival ih =>
      rw [fold_concat]
      exact (onMessage_fixed _ _ _).2.trans ih

/-- The pause and the respite of one more message add to the time. -/
theorem runTime_concat (machine : Machine S L ρ) (source : ρ) (heard : List Arrival)
    (arrival : Arrival) : machine.runTime source (heard ++ [arrival]) =
      machine.runTime source heard + turnTime machine.policy arrival
        ((machine.fold source heard).machine.onMessage (machine.fold source heard).source
          arrival.message).outcome := by
  rw [runTime, fold_concat, Fed.hear, List.zipWith_append (length_upshots heard).symm,
    List.foldl_append]
  rfl

/-- Time does not go back as more is heard. -/
theorem runTime_le_of_isPrefix {early : List Arrival} (h : early <+: heard) :
    machine.runTime source early ≤ machine.runTime source heard := by
  obtain ⟨later, rfl⟩ := h
  induction later using List.reverseRecOn with
  | nil => exact Nat.le_of_eq (by rw [List.append_nil])
  | append_singleton later arrival ih =>
      rw [← List.append_assoc, runTime_concat]
      exact Nat.le_trans ih (Nat.le_add_right _ _)

end Machine

namespace Line

/-- All that a line delivers once a number of messages have been sent on it. -/
def deliveries (line : Line) (count : Nat) : List Arrival :=
  line.inbound ++ (line.replies.take count).flatten

/-- A line on which messages have been sent. What it has not delivered yet is waiting. -/
def advanced (line : Line) (sent : List (Nat × Message)) (waiting : List Arrival) : Line :=
  { line with
    inbound := waiting
    replies := line.replies.drop sent.length
    sent := sent.reverse ++ line.sent }

theorem advanced_nil (line : Line) : line.advanced [] line.inbound = line := by
  simp [advanced]

/-- One more message that is sent brings its replies. -/
theorem deliveries_succ (line : Line) (count : Nat) :
    line.deliveries (count + 1) = line.deliveries count ++ line.replies[count]?.getD [] := by
  rw [deliveries, deliveries, List.take_add_one, List.flatten_append, ← List.append_assoc]
  cases line.replies[count]? <;> simp

/-- Sending once more on a line on which messages have been sent. -/
theorem send_advanced (line : Line) (sent : List (Nat × Message)) (waiting : List Arrival)
    (now : Nat) (message : Message) : (line.advanced sent waiting).send now message =
      if line.brokenAfter = some (line.sent.length + sent.length) then
        .error line.breakage
      else .ok (line.advanced (sent ++ [(now, message)])
        (waiting ++ line.replies[sent.length]?.getD [])) := by
  have hCount : (line.advanced sent waiting).sent.length = line.sent.length + sent.length := by
    simp [advanced, Nat.add_comm]
  rw [send, hCount]
  by_cases hBroken : line.brokenAfter = some (line.sent.length + sent.length)
  · rw [if_pos hBroken]
    exact if_pos hBroken
  · rw [if_neg hBroken]
    refine (if_neg hBroken).trans ?_
    simp [advanced]

end Line

end CipherRelay.Party
