import CipherRelay.Party.Machine
/-!
The history of a machine: what has come of the messages that it was handed, the latest first. Any
step table will do, any actions, any messages in any order, and each message comes with a source of
its own, so that others may have drawn in between. What a machine does next follows from its state,
its data and its history: the message that it sends once more is the last one it sent, and it counts
how often it has done so.
-/
namespace CipherRelay.Party

/-- What comes of one message. -/
abbrev Upshot := Except (Failure PartyError) Reaction

/-- The last message that was sent, if one was. -/
def lastSent? : List Upshot → Option Message
  | [] => none
  | .ok (.send message) :: _ => some message
  | _ :: earlier => lastSent? earlier

/-- How often a message has been sent once more since an action last succeeded. -/
def resentSince : List Upshot → Nat
  | [] => 0
  | .ok (.send _) :: _ | .ok (.halt _) :: _ => 0
  | .ok (.resend _) :: earlier => resentSince earlier + 1
  | _ :: earlier => resentSince earlier

/-- Whether a machine has taken leave. -/
def Left (history : List Upshot) : Prop :=
  ∃ message, .ok (.halt message) ∈ history

/-- Nothing came of some messages that is put on the wire. -/
def Quiet (upshots : List Upshot) : Prop :=
  ∀ reaction, .ok reaction ∈ upshots → reaction = .ignore

theorem Quiet.tail {upshot : Upshot} {upshots : List Upshot} (h : Quiet (upshot :: upshots)) :
    Quiet upshots :=
  fun reaction hMem => h reaction (List.mem_cons_of_mem _ hMem)

/-- What is not put on the wire leaves the last message and the count as they were. -/
theorem Quiet.append {later : List Upshot} (h : Quiet later) (history : List Upshot) :
    lastSent? (later ++ history) = lastSent? history ∧
      resentSince (later ++ history) = resentSince history := by
  induction later with
  | nil => exact ⟨rfl, rfl⟩
  | cons upshot later ih =>
      cases upshot with
      | error failure => exact ih h.tail
      | ok reaction =>
          obtain rfl : reaction = .ignore := h reaction List.mem_cons_self
          exact ih h.tail

namespace Machine

variable {S L ρ : Type} [DecidableEq S] [ToString S]

/-- The machine after some messages. -/
def after (machine : Machine S L ρ) : List (ρ × Message) → Machine S L ρ
  | [] => machine
  | (source, message) :: rest => (machine.onMessage source message).machine.after rest

/-- What comes of each of some messages, in order. -/
def upshots (machine : Machine S L ρ) : List (ρ × Message) → List Upshot
  | [] => []
  | (source, message) :: rest =>
      (machine.onMessage source message).outcome ::
        (machine.onMessage source message).machine.upshots rest

/-- Whether a message carries the trigger of the current step. -/
def Fires (machine : Machine S L ρ) (message : Message) : Prop :=
  machine.halted = false ∧
    ∃ step, machine.table.get? machine.state = some step ∧ message.tag = step.trigger

/-- Whether a message carries the retry tag of the current step, and not its trigger. -/
def Retries (machine : Machine S L ρ) (message : Message) : Prop :=
  machine.halted = false ∧
    ∃ step, machine.table.get? machine.state = some step ∧ message.tag ≠ step.trigger ∧
      step.retryOn = some message.tag

/-- All that can come of a message. -/
inductive Hears (machine : Machine S L ρ) (source : ρ) (message : Message) :
    Delivery S L ρ → Prop
  | left (hLeft : machine.halted = true) :
      Hears machine source message ⟨.ok .ignore, machine, source⟩
  | lost (hLive : machine.halted = false) (hStep : machine.table.get? machine.state = none) :
      Hears machine source message
        ⟨.error (.error (.unknownState (toString machine.state))), machine, source⟩
  | fails {step : Step S L ρ} {failure : Failure PartyError} {data : L} {after : ρ}
      (hLive : machine.halted = false) (hStep : machine.table.get? machine.state = some step)
      (hTag : message.tag = step.trigger)
      (hAction : step.action message (machine.data, source) = .error failure (data, after)) :
      Hears machine source message ⟨.error failure, { machine with data }, after⟩
  | sends {step : Step S L ρ} {sent : Message} {state : S} {data : L} {after : ρ}
      (hLive : machine.halted = false) (hStep : machine.table.get? machine.state = some step)
      (hTag : message.tag = step.trigger)
      (hAction : step.action message (machine.data, source) =
        .ok (.send sent state) (data, after)) :
      Hears machine source message
        ⟨.ok (.send sent), { machine with data, state, outbound := some sent, attempts := 0 },
          after⟩
  | halts {step : Step S L ρ} {sent : Message} {data : L} {after : ρ}
      (hLive : machine.halted = false) (hStep : machine.table.get? machine.state = some step)
      (hTag : message.tag = step.trigger)
      (hAction : step.action message (machine.data, source) = .ok (.halt sent) (data, after)) :
      Hears machine source message
        ⟨.ok (.halt sent), { machine with data, outbound := none, attempts := 0, halted := true },
          after⟩
  | resends {again : Message} (hRetries : machine.Retries message)
      (hOutbound : machine.outbound = some again)
      (hPatient : machine.attempts < machine.policy.maxAttempts) :
      Hears machine source message
        ⟨.ok (.resend again), { machine with attempts := machine.attempts + 1 }, source⟩
  | tires {again : Message} (hRetries : machine.Retries message)
      (hOutbound : machine.outbound = some again)
      (hTired : machine.policy.maxAttempts ≤ machine.attempts) :
      Hears machine source message
        ⟨.error (.error (.timeout (toString machine.state) machine.attempts)), machine, source⟩
  | passes (hStill : ¬machine.Fires message)
      (hNothing : machine.Retries message → machine.outbound = none) :
      Hears machine source message ⟨.ok .ignore, machine, source⟩

variable {machine : Machine S L ρ} {source : ρ} {message : Message}

omit [ToString S] in
theorem fires_iff {step : Step S L ρ} (hLive : machine.halted = false)
    (hStep : machine.table.get? machine.state = some step) :
    machine.Fires message ↔ message.tag = step.trigger := by
  simp [Fires, hLive, hStep]

/-- Something comes of every message in one of these ways. -/
theorem hears (machine : Machine S L ρ) (source : ρ) (message : Message) :
    machine.Hears source message (machine.onMessage source message) := by
  unfold onMessage
  split
  case isTrue hLeft => exact .left hLeft
  case isFalse hLive =>
    rw [Bool.not_eq_true] at hLive
    split
    case h_1 hStep => exact .lost hLive hStep
    case h_2 step hStep =>
      split
      case isTrue hTag =>
        split
        case h_1 failure data after hAction => exact .fails hLive hStep hTag hAction
        case h_2 next data after hAction =>
          cases next with
          | send sent state => exact .sends hLive hStep hTag hAction
          | halt sent => exact .halts hLive hStep hTag hAction
      case isFalse hTag =>
        have hStill : ¬machine.Fires message := by rwa [fires_iff hLive hStep]
        split
        case h_1 again hOutbound =>
          by_cases hRetry : step.retryOn = some message.tag
          · have hRetries : machine.Retries message := ⟨hLive, step, hStep, hTag, hRetry⟩
            rw [if_pos hRetry]
            unfold retry
            by_cases hTired : machine.policy.maxAttempts ≤ machine.attempts
            · rw [if_pos hTired]
              exact .tires hRetries hOutbound hTired
            · rw [if_neg hTired]
              exact .resends hRetries hOutbound (UInt32.not_le.mp hTired)
          · rw [if_neg hRetry]
            refine .passes hStill fun hRetries => hRetry.elim ?_
            obtain ⟨-, other, hSame, -, hOther⟩ := hRetries
            rw [hStep] at hSame
            rwa [Option.some.inj hSame]
        case h_2 hNone => exact .passes hStill fun _ => hNone

/-- No message changes the table or the policy. -/
theorem onMessage_fixed (machine : Machine S L ρ) (source : ρ) (message : Message) :
    (machine.onMessage source message).machine.table = machine.table ∧
      (machine.onMessage source message).machine.policy = machine.policy := by
  have hHears := machine.hears source message
  generalize machine.onMessage source message = delivery at hHears
  cases hHears <;> exact ⟨rfl, rfl⟩

/-- So it is after any messages. -/
theorem after_fixed (machine : Machine S L ρ) (turns : List (ρ × Message)) :
    (machine.after turns).table = machine.table ∧
      (machine.after turns).policy = machine.policy := by
  induction turns generalizing machine with
  | nil => exact ⟨rfl, rfl⟩
  | cons turn rest ih =>
      have hFirst := machine.onMessage_fixed turn.1 turn.2
      have hRest := ih (machine.onMessage turn.1 turn.2).machine
      exact ⟨hRest.1.trans hFirst.1, hRest.2.trans hFirst.2⟩

/-- A machine that sends goes on from where that leads it. -/
theorem after_cons_of_send {step : Step S L ρ} {sent : Message} {state : S} {data : L} {after : ρ}
    (hLive : machine.halted = false) (hStep : machine.table.get? machine.state = some step)
    (hTag : message.tag = step.trigger)
    (hAction : step.action message (machine.data, source) = .ok (.send sent state) (data, after))
    (rest : List (ρ × Message)) : machine.after ((source, message) :: rest) =
      { machine with data, state, outbound := some sent, attempts := 0 }.after rest := by
  simp only [Machine.after, onMessage, hLive, hStep, hTag, hAction]
  rfl

/-- How a machine and its history go together. -/
structure Agrees (machine : Machine S L ρ) (history : List Upshot) : Prop where
  halted : machine.halted = true ↔ Left history
  outbound : machine.halted = false → machine.outbound = lastSent? history
  attempts : machine.attempts.toNat = resentSince history
  patience : resentSince history ≤ machine.policy.maxAttempts.toNat

omit [DecidableEq S] [ToString S] in
theorem agrees_start (table : StepTable S L ρ) (data : L) (policy : RetryPolicy) :
    (start table data policy).Agrees [] where
  halted := by simp [start, Left]
  outbound _ := rfl
  attempts := rfl
  patience := Nat.zero_le _

/-- The counter of a patient machine does not overflow. -/
theorem toNat_succ_attempts {attempts most : UInt32} (h : attempts < most) :
    (attempts + 1).toNat = attempts.toNat + 1 := by
  have hLt := UInt32.lt_iff_toNat_lt.mp h
  have hMost := most.toNat_lt
  rw [UInt32.toNat_add, UInt32.toNat_one]
  omega

variable {history : List Upshot}

/-- One message. -/
theorem Agrees.hear (h : machine.Agrees history) (source : ρ) (message : Message) :
    (machine.onMessage source message).machine.Agrees
      ((machine.onMessage source message).outcome :: history) := by
  have hHears := machine.hears source message
  generalize machine.onMessage source message = delivery at hHears
  have hLeft (upshot : Upshot) (hOther : ∀ message, upshot ≠ .ok (.halt message)) :
      Left (upshot :: history) ↔ Left history := by
    constructor
    · rintro ⟨message, hMem⟩
      exact ⟨message, (List.mem_cons.mp hMem).resolve_left (hOther message).symm⟩
    · rintro ⟨message, hMem⟩
      exact ⟨message, List.mem_cons_of_mem _ hMem⟩
  cases hHears with
  | left | lost | passes | tires | fails =>
      exact ⟨h.halted.trans (hLeft _ (by simp)).symm, h.outbound, h.attempts, h.patience⟩
  | sends => exact ⟨h.halted.trans (hLeft _ (by simp)).symm, fun _ => rfl, rfl, Nat.zero_le _⟩
  | @halts step sent =>
      exact ⟨iff_of_true rfl ⟨sent, List.mem_cons_self⟩, by simp, rfl, Nat.zero_le _⟩
  | resends hRetries hOutbound hPatient =>
      have hAttempts := h.attempts
      have hSucc := toNat_succ_attempts hPatient
      have hMost := UInt32.lt_iff_toNat_lt.mp hPatient
      refine ⟨h.halted.trans (hLeft _ (by simp)).symm, h.outbound, ?_, ?_⟩
      · simp only [resentSince]
        omega
      · simp only [resentSince]
        omega

/-- Any messages. -/
theorem Agrees.run (h : machine.Agrees history) (turns : List (ρ × Message)) :
    (machine.after turns).Agrees ((machine.upshots turns).reverse ++ history) := by
  induction turns generalizing machine history with
  | nil => exact h
  | cons turn rest ih =>
      have hRest := ih (h.hear turn.1 turn.2)
      rwa [after, upshots, List.reverse_cons, List.append_assoc]

/-- What a machine does with a message, given the table and the policy that it started with and the
history that led to where it is. -/
structure Lawful (table : StepTable S L ρ) (policy : RetryPolicy) (history : List Upshot)
    (machine : Machine S L ρ) (source : ρ) (message : Message) : Prop where
  /-- The table and the policy are still those of the start. -/
  fixed : machine.table = table ∧ machine.policy = policy
  /-- Without the trigger of the current step nothing moves but the counter. -/
  still : ¬machine.Fires message → (machine.onMessage source message).machine =
    { machine with attempts := (machine.onMessage source message).machine.attempts }
  /-- With the trigger the action decides, whatever the retry tag and the counter are. -/
  fires : ∀ step, machine.halted = false → machine.table.get? machine.state = some step →
    message.tag = step.trigger → machine.onMessage source message =
      match step.action message (machine.data, source) with
      | .ok (.send sent state) (data, after) => ⟨.ok (.send sent),
          { machine with data, state, outbound := some sent, attempts := 0 }, after⟩
      | .ok (.halt sent) (data, after) => ⟨.ok (.halt sent),
          { machine with data, outbound := none, attempts := 0, halted := true }, after⟩
      | .error failure (data, after) => ⟨.error failure, { machine with data }, after⟩
  /-- A message that is ignored leaves the machine as it was. -/
  ignores : (machine.onMessage source message).outcome = .ok .ignore →
    (machine.onMessage source message).machine = machine
  /-- A message on which the machine fails may have changed the party's own data. -/
  fails : ∀ failure, (machine.onMessage source message).outcome = .error failure →
    (machine.onMessage source message).machine =
      { machine with data := (machine.onMessage source message).machine.data }
  /-- What is sent once more is the last message that was sent, and that is counted. -/
  resends : ∀ again, (machine.onMessage source message).outcome = .ok (.resend again) →
    lastSent? history = some again ∧ resentSince history < policy.maxAttempts.toNat ∧
      (machine.onMessage source message).machine.attempts.toNat = machine.attempts.toNat + 1
  /-- The counter tells how often that has been done since the last success of an action. -/
  counts : machine.attempts.toNat = resentSince history ∧
    resentSince history ≤ policy.maxAttempts.toNat
  /-- On the retry tag the last message is sent once more until the patience is at its end. -/
  retries : machine.Retries message → (machine.onMessage source message).outcome =
    match lastSent? history with
    | none => .ok .ignore
    | some last =>
        if resentSince history < policy.maxAttempts.toNat then .ok (.resend last)
        else .error (.error (.timeout (toString machine.state) policy.maxAttempts))
  /-- After the leave every message is ignored, and nothing changes. -/
  leaves : Left history → machine.onMessage source message = ⟨.ok .ignore, machine, source⟩

omit [ToString S] in
/-- A message with the retry tag does not carry the trigger. -/
theorem Retries.not_fires (h : machine.Retries message) : ¬machine.Fires message := by
  obtain ⟨hLive, step, hStep, hTag, -⟩ := h
  rwa [fires_iff hLive hStep]

/-- A machine that agrees with its history obeys the law. -/
theorem Agrees.lawful (h : machine.Agrees history) (source : ρ) (message : Message) :
    Lawful machine.table machine.policy history machine source message := by
  have hHears := machine.hears source message
  refine ⟨⟨rfl, rfl⟩, ?still, ?fires, ?ignores, ?fails, ?resends, ⟨h.attempts, h.patience⟩,
    ?retries, ?leaves⟩
  case fires =>
    intro step hLive hStep hTag
    simp only [onMessage, hLive, hStep, if_pos hTag]
    cases step.action message (machine.data, source) with
    | error failure state => rfl
    | ok next state => cases next <;> rfl
  case leaves =>
    intro hLeft
    simp [onMessage, h.halted.mpr hLeft]
  all_goals generalize machine.onMessage source message = delivery at hHears
  case still =>
    intro hStill
    cases hHears with
    | fails hLive hStep hTag | sends hLive hStep hTag | halts hLive hStep hTag =>
        exact absurd ((fires_iff hLive hStep).mpr hTag) hStill
    | left | lost | passes | tires | resends => rfl
  case ignores =>
    intro hIgnores
    cases hHears <;> first | rfl | cases hIgnores
  case fails =>
    intro failure hFails
    cases hHears <;> first | rfl | cases hFails
  case resends =>
    intro again hResends
    cases hHears with
    | resends hRetries hOutbound hPatient =>
        cases hResends
        rw [← h.outbound hRetries.1, ← h.attempts]
        exact ⟨hOutbound, UInt32.lt_iff_toNat_lt.mp hPatient, toNat_succ_attempts hPatient⟩
    | _ => cases hResends
  case retries =>
    intro hRetries
    have hStill := hRetries.not_fires
    rw [← h.outbound hRetries.1, ← h.attempts]
    cases hHears with
    | left hLeft => exact absurd (hRetries.1.symm.trans hLeft) (by simp)
    | lost hLive hStep =>
        obtain ⟨-, step, hSome, -⟩ := hRetries
        rw [hStep] at hSome
        cases hSome
    | fails hLive hStep hTag | sends hLive hStep hTag | halts hLive hStep hTag =>
        exact absurd ((fires_iff hLive hStep).mpr hTag) hStill
    | passes _ hNothing => rw [hNothing hRetries]
    | resends _ hOutbound hPatient =>
        simp only [hOutbound, if_pos (UInt32.lt_iff_toNat_lt.mp hPatient)]
    | tires _ hOutbound hTired =>
        have hMost := UInt32.le_iff_toNat_le.mp hTired
        have hCount := h.attempts
        have hPatience := h.patience
        have hSame : machine.attempts = machine.policy.maxAttempts :=
          UInt32.toNat_inj.mp (by omega)
        simp only [hOutbound, hSame, Nat.lt_irrefl, if_false]

/-- A machine that is allowed an attempt sends its last message once more when it is first asked
to. -/
theorem resends_when_first_asked {table : StepTable S L ρ} {data : L} {policy : RetryPolicy}
    {turns : List (ρ × Message)} {earlier later : List Upshot} {sent : Message}
    (hAllowed : 1 ≤ policy.maxAttempts)
    (hUpshots : (start table data policy).upshots turns = earlier ++ .ok (.send sent) :: later)
    (hQuiet : Quiet later)
    (hRetries : ((start table data policy).after turns).Retries message) :
    (((start table data policy).after turns).onMessage source message).outcome =
      .ok (.resend sent) := by
  have hAgrees := (agrees_start table data policy).run turns
  have hHistory : ((start table data policy).upshots turns).reverse ++ [] =
      later.reverse ++ .ok (.send sent) :: earlier.reverse := by simp [hUpshots]
  rw [hHistory] at hAgrees
  have hReverse : Quiet later.reverse :=
    fun reaction hMem => hQuiet reaction (List.mem_reverse.mp hMem)
  obtain ⟨hLast, hCount⟩ := hReverse.append (.ok (.send sent) :: earlier.reverse)
  have hPositive : 0 < policy.maxAttempts.toNat := UInt32.le_iff_toNat_le.mp hAllowed
  have hLaw := (hAgrees.lawful source message).retries hRetries
  rw [hLast, hCount, (after_fixed (start table data policy) turns).2] at hLaw
  exact hLaw.trans (if_pos hPositive)

/-- The law of machines. For every table, every policy and every data of the party, and after any
messages, a machine treats the next message as its table, its policy and its history say. -/
theorem obeys_its_law (table : StepTable S L ρ) (data : L) (policy : RetryPolicy)
    (turns : List (ρ × Message)) (source : ρ) (message : Message) :
    Lawful table policy ((start table data policy).upshots turns).reverse
      ((start table data policy).after turns) source message := by
  have hAgrees := (agrees_start table data policy).run turns
  have hFixed := (start table data policy).after_fixed turns
  have hLawful := hAgrees.lawful source message
  rwa [hFixed.1, hFixed.2, List.append_nil] at hLawful

end Machine

end CipherRelay.Party
