import CipherRelay.Party.Machine
import CipherRelay.Proofs.Artifact.RoundTrip
import CipherRelay.Proofs.Scheme.Operations
/-!
How actions run, which steps a table has, and what a machine does with a message. An action is
worked out part by part on a party's own data; a machine fires on its trigger, and otherwise sends
its last message once more or gives up.
-/
namespace CipherRelay.Party

open Scheme

namespace Action

variable {L ρ α β : Type}

@[simp]
theorem data_bind (f : L → Action L ρ β) (l : L) (source : ρ) :
    (Action.data >>= f) (l, source) = f l (l, source) := rfl

@[simp]
theorem change_bind (g : L → L) (f : Unit → Action L ρ β) (l : L) (source : ρ) :
    (Action.change g >>= f) (l, source) = f () (g l, source) := rfl

@[simp]
theorem require_some (item : String) (piece : α) :
    (Action.require item (some piece) : Action L ρ α) = pure piece := rfl

@[simp]
theorem engine_ok (value : α) : (Action.engine (.ok value) : Action L ρ α) = pure value := rfl

@[simp]
theorem compute_ok (value : α) : (Action.compute (.ok value) : Action L ρ α) = pure value := rfl

/-- A payload that has been encoded is decoded. -/
@[simp]
theorem decode_encode [Artifact α] [Artifact.Lawful α] (artifact : α) :
    (Action.decode (Artifact.encode artifact) : Action L ρ α) = pure artifact := by
  simp only [Action.decode, Artifact.decode_encode]
  rfl

/-- What is drawn moves the source on and leaves the data. -/
theorem draw_eq {operation : Draw ρ EngineError α} {source after : ρ} {value : α}
    (h : operation source = .ok value after) (l : L) :
    (Action.draw operation : Action L ρ α) (l, source) = .ok value (l, after) := by
  simp only [Action.draw, h]

theorem draw_eq_error {operation : Draw ρ EngineError α} {source after : ρ}
    {failure : Failure EngineError} (h : operation source = .error failure after) (l : L) :
    (Action.draw operation : Action L ρ α) (l, source) =
      .error (failure.mapError .engine) (l, after) := by
  simp only [Action.draw, h]

/-- An action that goes on with a key pair crashes where there is no room for one. Nothing has been
drawn or changed by then. -/
theorem keyGen_bind_eq_crash [RandomSource ρ] {cc : Context} (h : ¬cc.HasRoom)
    (f : KeyPair → Action L ρ β) (l : L) (source : ρ) :
    (Action.draw cc.keyGen >>= f) (l, source) = .error (.crash .capacity) (l, source) :=
  Draw.bind_eq_error (draw_eq_error (Context.keyGen_eq_crash h source) l) f

/-- Whether an action comes to nothing but values with a property, whatever it works on. It may
fail. -/
def Yields (action : Action L ρ α) (P : α → Prop) : Prop :=
  ∀ state value after, action state = .ok value after → P value

theorem Yields.pure {P : α → Prop} {value : α} (h : P value) :
    (Pure.pure value : Action L ρ α).Yields P := by
  rintro state _ _ ⟨⟩
  exact h

/-- Only the last part of an action decides what it comes to. -/
theorem Yields.bind {P : β → Prop} {action : Action L ρ α} {f : α → Action L ρ β}
    (h : ∀ value, (f value).Yields P) : (action >>= f).Yields P := by
  intro state value after hBind
  cases hAction : action state with
  | ok first middle =>
      simp only [Bind.bind, EStateM.bind, hAction] at hBind
      exact h first middle value after hBind
  | error failure middle =>
      simp only [Bind.bind, EStateM.bind, hAction] at hBind
      cases hBind

end Action

namespace StepTable

variable {S L ρ : Type} [DecidableEq S]

/-- A step is found for its own state, and no other state's step changes. -/
theorem get?_step (table : StepTable S L ρ) (s s' : S) (step : Step S L ρ) :
    (table.step s step).get? s' = if s = s' then some step else table.get? s' := by
  by_cases hSame : s = s'
  · simp [StepTable.step, get?, hSame]
  · have hFilter : (table.steps.filter fun entry => entry.1 ≠ s).find? (fun entry => entry.1 = s') =
        table.steps.find? fun entry => entry.1 = s' := by
      rw [List.find?_filter]
      congr 1
      funext entry
      by_cases hEntry : entry.1 = s'
      · simp [hEntry, Ne.symm hSame]
      · simp [hEntry]
    simp only [StepTable.step, get?, List.find?_cons, hSame, decide_false, hFilter, if_false]

/-- A table that is extended by a step for each of several states has these steps. -/
theorem get?_extend_map (f : S → Step S L ρ) {s : S} {states : List S} (table : StepTable S L ρ)
    (h : s ∈ states ∨ table.get? s = some (f s)) :
    (table.extend (states.map fun s => (s, f s))).get? s = some (f s) := by
  induction states generalizing table with
  | nil => exact h.resolve_left (by simp)
  | cons first rest ih =>
      refine ih _ ?_
      rw [get?_step]
      by_cases hFirst : first = s
      · exact .inr (by rw [if_pos hFirst, hFirst])
      · rw [if_neg hFirst]
        exact h.imp_left fun hMem => (List.mem_cons.mp hMem).resolve_left (Ne.symm hFirst)

/-- A table that is extended by a step for each of several new states has as many more steps. -/
theorem size_extend_map (f : S → Step S L ρ) {states : List S} (table : StepTable S L ρ)
    (hNodup : states.Nodup) (hNew : ∀ entry ∈ table.steps, entry.1 ∉ states) :
    (table.extend (states.map fun s => (s, f s))).size = table.size + states.length := by
  induction states generalizing table with
  | nil => rfl
  | cons first rest ih =>
      obtain ⟨hFirst, hRest⟩ := List.nodup_cons.mp hNodup
      have hKept : (table.step first (f first)).steps = (first, f first) :: table.steps := by
        refine congrArg _ (List.filter_eq_self.mpr fun entry hMem => ?_)
        have hOther := List.ne_of_not_mem_cons (hNew entry hMem)
        simpa using hOther
      have hSize : (table.step first (f first)).size = table.size + 1 := congrArg List.length hKept
      have hExtend := ih (table.step first (f first)) hRest fun entry hMem => ?_
      · rw [List.length_cons, Nat.add_comm rest.length, ← Nat.add_assoc, ← hSize]
        exact hExtend
      · rw [hKept] at hMem
        rcases List.mem_cons.mp hMem with rfl | hOld
        · exact hFirst
        · exact fun hLater => hNew entry hOld (List.mem_cons_of_mem _ hLater)

end StepTable

namespace Machine

variable {S L ρ : Type} [DecidableEq S] [ToString S] {machine : Machine S L ρ} {step : Step S L ρ}
  {message : Message} {source after : ρ} {data : L}

/-- The trigger of the current step fires its action. -/
theorem onMessage_trigger {next : Next S} (hLive : machine.halted = false)
    (hStep : machine.table.get? machine.state = some step) (hTag : message.tag = step.trigger)
    (hAction : step.action message (machine.data, source) = .ok next (data, after)) :
    machine.onMessage source message =
      ⟨.ok ({ machine with data }.follow next).1, ({ machine with data }.follow next).2,
        after⟩ := by
  simp only [onMessage, hLive, hStep, hTag, hAction]
  rfl

/-- Where the action fails, the machine keeps its state and what the action has left of the data. -/
theorem onMessage_error {failure : Failure PartyError} (hLive : machine.halted = false)
    (hStep : machine.table.get? machine.state = some step) (hTag : message.tag = step.trigger)
    (hAction : step.action message (machine.data, source) = .error failure (data, after)) :
    machine.onMessage source message = ⟨.error failure, { machine with data }, after⟩ := by
  simp only [onMessage, hLive, hStep, hTag, hAction]
  rfl

/-- The retry tag sends the last message once more or ends the machine's patience. -/
theorem onMessage_retry (source : ρ) {outbound : Message} (hLive : machine.halted = false)
    (hStep : machine.table.get? machine.state = some step) (hTag : message.tag ≠ step.trigger)
    (hRetry : step.retryOn = some message.tag) (hOutbound : machine.outbound = some outbound) :
    machine.onMessage source message =
        ⟨.error (.error (.timeout (toString machine.state) machine.attempts)), machine, source⟩ ∨
      machine.onMessage source message =
        ⟨.ok (.resend outbound), { machine with attempts := machine.attempts + 1 }, source⟩ := by
  simp only [onMessage, hLive, hStep, hTag, hRetry, hOutbound, retry]
  by_cases hTired : machine.policy.maxAttempts ≤ machine.attempts
  · exact .inl (by simp [hTired])
  · exact .inr (by simp [hTired])

end Machine

end CipherRelay.Party
