import CipherRelay.Proofs.Party.Fold
/-!
A run does what its machine says and nothing else. Whatever the line delivers and wherever it
breaks, the messages that the party sends are the answers of the machine to the messages that
arrive, in order and each once, and the run ends with what stopped it first. One turn of a run goes
on or stops so; by induction the whole run does.
-/
namespace CipherRelay.Party.Machine

/-- No signal is given before a time. -/
def NotBefore (signal : Option Nat) (now : Nat) : Prop :=
  ∀ time, signal = some time → now ≤ time

variable {S L ρ : Type} [DecidableEq S] [ToString S]

section Run

-- The run begins with the machine on the line, and the signal may cancel it.
variable (signal : Option Nat) (machine : Machine S L ρ) (source : ρ) (line : Line)

/-- What a run has done so far. Of what its line delivers it has heard some messages, and the others
are waiting. -/
structure Progress (heard : List Arrival) (sent : List (Nat × Message)) (waiting : List Arrival) :
    Prop where
  /-- Messages are heard in the order in which they are delivered. -/
  delivered : line.deliveries sent.length = heard ++ waiting
  /-- None took longer than the party waits. -/
  prompt : ∀ arrival ∈ heard, pause arrival.delay ≤ machine.policy.replyTimeout
  /-- The line did not break where messages were sent. -/
  unbroken : ∀ i < sent.length, line.brokenAfter ≠ some (line.sent.length + i)
  /-- Nothing stopped the run before the last message. -/
  goesOn : ∀ upshot ∈ (machine.fold source heard).upshots.dropLast, continues upshot
  /-- Nor did a signal. -/
  calm : NotBefore signal (machine.runTime source heard.dropLast)

/-- A run between two turns. It has sent all that its machine answered. -/
structure Underway (heard : List Arrival) (sent : List (Nat × Message)) (waiting : List Arrival) :
    Prop extends Progress signal machine source line heard sent waiting where
  answered : (machine.fold source heard).upshots.filterMap answer? = sent.map (·.2)
  goesOnStill : ∀ upshot ∈ (machine.fold source heard).upshots, continues upshot
  calmStill : NotBefore signal (machine.runTime source heard)

/-- A run within a turn, when something has come of the last message that it heard. -/
structure Told (heard : List Arrival) (sent : List (Nat × Message)) (waiting : List Arrival)
    (upshot : Upshot) : Prop
    extends Progress signal machine source line heard sent waiting where
  last : ∃ earlier, (machine.fold source heard).upshots = earlier ++ [upshot] ∧
    earlier.filterMap answer? = sent.map (·.2)

/-- How a run ends: the message that the line refused, the message that a signal recalled, the time
and the result. -/
inductive Verdict (heard : List Arrival) (sent : List (Nat × Message)) (waiting : List Arrival) :
    Option Message → Option Message → Nat → Except (Failure PartyError) L → Prop
  /-- The machine has halted, and its last message was sent. -/
  | halts {earlier : List Upshot} {message : Message}
      (hLast : (machine.fold source heard).upshots = earlier ++ [.ok (.halt message)]) :
      Verdict heard sent waiting none none (machine.runTime source heard)
        (.ok (machine.fold source heard).machine.data)
  /-- The machine has failed. -/
  | fails {earlier : List Upshot} {failure : Failure PartyError}
      (hLast : (machine.fold source heard).upshots = earlier ++ [.error failure]) :
      Verdict heard sent waiting none none (machine.runTime source heard) (.error failure)
  /-- The line has refused a message, and the run ends with the error of the line. -/
  | breaks {earlier : List Upshot} {upshot : Upshot} {message : Message}
      (hLast : (machine.fold source heard).upshots = earlier ++ [upshot])
      (hAnswer : answer? upshot = some message)
      (hBroken : line.brokenAfter = some (line.sent.length + sent.length)) :
      Verdict heard sent waiting (some message) none (machine.runTime source heard)
        (.error (.error line.breakage))
  /-- A signal was given before the backoff of a re-send was over. -/
  | recalls {earlier : List Upshot} {message : Message} {time : Nat}
      (hLast : (machine.fold source heard).upshots = earlier ++ [.ok (.resend message)])
      (hSignal : signal = some time) (hEarly : time < machine.runTime source heard) :
      Verdict heard sent waiting none (some message) time (.error (.error .cancelled))
  /-- The peer has closed the line. -/
  | closes (hGoesOn : ∀ upshot ∈ (machine.fold source heard).upshots, continues upshot)
      (hWaiting : waiting = []) (hDry : line.dry = .closed) :
      Verdict heard sent waiting none none (machine.runTime source heard)
        (.error (.error .connectionClosed))
  /-- No message has arrived within the time that the party waits. -/
  | tires (hGoesOn : ∀ upshot ∈ (machine.fold source heard).upshots, continues upshot)
      (hSilent : waiting = [] ∧ line.dry = .silent ∨ ∃ arrival rest,
        waiting = arrival :: rest ∧ machine.policy.replyTimeout < pause arrival.delay)
      (hCalm : NotBefore signal (machine.runTime source heard + machine.policy.replyTimeout)) :
      Verdict heard sent waiting none none
        (machine.runTime source heard + machine.policy.replyTimeout)
        (.error (.error (.timeout (toString (machine.fold source heard).machine.state)
          (machine.fold source heard).machine.attempts)))
  /-- A signal was given while the party waited. -/
  | cancels {time : Nat}
      (hGoesOn : ∀ upshot ∈ (machine.fold source heard).upshots, continues upshot)
      (hWaiting : waiting = [] → line.dry = .silent) (hSignal : signal = some time)
      (hEarly : time < machine.runTime source heard + machine.policy.replyTimeout)
      (hBefore : ∀ arrival rest, waiting = arrival :: rest →
        time < machine.runTime source heard + pause arrival.delay) :
      Verdict heard sent waiting none none time (.error (.error .cancelled))

/-- What a run has done in all. What its machine answered was sent, but for the last message where
the line refused it or a signal recalled it. -/
structure Driven (ending : Ending L ρ) (heard : List Arrival) (sent : List (Nat × Message))
    (waiting : List Arrival) (refused recalled : Option Message) : Prop
    extends Progress signal machine source line heard sent waiting where
  left : ending.line = line.advanced sent waiting
  drawn : ending.source = (machine.fold source heard).source
  /-- Each answer was handed to the line, once and in order, but for a recalled one. -/
  answered : (machine.fold source heard).upshots.filterMap answer? =
    sent.map (·.2) ++ refused.toList ++ recalled.toList
  calmUnlessRecalled : recalled = none → NotBefore signal (machine.runTime source heard)
  verdict : Verdict signal machine source line heard sent waiting refused recalled
    ending.elapsed ending.result

/-- What a turn leads to. -/
inductive Leads : Course S L ρ → Prop
  | on {heard : List Arrival} {sent : List (Nat × Message)} {waiting : List Arrival}
      (hUnderway : Underway signal machine source line heard sent waiting) :
      Leads (.go (machine.fold source heard).machine (line.advanced sent waiting)
        (machine.runTime source heard) (machine.fold source heard).source)
  | off {ending : Ending L ρ} {heard : List Arrival} {sent : List (Nat × Message)}
      {waiting : List Arrival} {refused recalled : Option Message}
      (hDriven : Driven signal machine source line ending heard sent waiting refused recalled) :
      Leads (.stop ending)

end Run

variable {signal : Option Nat} {machine : Machine S L ρ} {source : ρ} {line : Line}
  {heard : List Arrival} {sent : List (Nat × Message)} {waiting rest : List Arrival}
  {arrival : Arrival} {message : Message}

/-- A run begins underway, with nothing heard or sent. -/
theorem underway_nil (signal : Option Nat) (machine : Machine S L ρ) (source : ρ) (line : Line) :
    Underway signal machine source line [] [] line.inbound where
  delivered := by simp [Line.deliveries]
  prompt _ hMem := by cases hMem
  unbroken i hLt := absurd hLt (Nat.not_lt_zero i)
  goesOn _ hMem := by cases hMem
  calm _ _ := Nat.zero_le _
  answered := rfl
  goesOnStill _ hMem := by cases hMem
  calmStill _ _ := Nat.zero_le _

/-- A signal that has not been given when a wait begins interrupts it when it is given before the
wait is over. -/
theorem interrupt?_eq {now due : Nat} (hCalm : NotBefore signal now) :
    interrupt? signal now due = signal.filter (· < due) := by
  cases signal with
  | none => rfl
  | some time =>
      have hMax : max time now = time := Nat.max_eq_left (hCalm time rfl)
      simp only [interrupt?, hMax, Option.filter_some, decide_eq_true_eq]

theorem interrupt?_eq_some_iff {now due time : Nat} (hCalm : NotBefore signal now) :
    interrupt? signal now due = some time ↔ signal = some time ∧ time < due := by
  rw [interrupt?_eq hCalm, Option.filter_eq_some_iff, decide_eq_true_eq]

/-- A wait is not interrupted exactly when no signal is given before its end. -/
theorem interrupt?_eq_none_iff {now due : Nat} (hCalm : NotBefore signal now) :
    interrupt? signal now due = none ↔ NotBefore signal due := by
  simp [interrupt?_eq hCalm, Option.filter_eq_none_iff, NotBefore]

/-- A message that has arrived in time. -/
theorem Underway.hear (h : Underway signal machine source line heard sent (arrival :: rest))
    (hPrompt : pause arrival.delay ≤ machine.policy.replyTimeout) :
    Told signal machine source line (heard ++ [arrival]) sent rest
      ((machine.fold source heard).machine.onMessage (machine.fold source heard).source
        arrival.message).outcome where
  delivered := by rw [h.delivered, List.append_assoc, List.singleton_append]
  prompt other hMem := by
    rcases List.mem_append.mp hMem with hOld | hNew
    · exact h.prompt other hOld
    · rwa [List.mem_singleton.mp hNew]
  unbroken := h.unbroken
  goesOn := by
    rw [fold_concat, Fed.hear, List.dropLast_concat]
    exact h.goesOnStill
  calm := by
    rw [List.dropLast_concat]
    exact h.calmStill
  last := ⟨_, by rw [fold_concat, Fed.hear], h.answered⟩

/-- A message that the line has taken. -/
theorem Progress.send (h : Progress signal machine source line heard sent waiting)
    (hWhole : line.brokenAfter ≠ some (line.sent.length + sent.length)) (now : Nat)
    (message : Message) : Progress signal machine source line heard (sent ++ [(now, message)])
      (waiting ++ line.replies[sent.length]?.getD []) where
  delivered := by
    rw [List.length_append, List.length_singleton, Line.deliveries_succ, h.delivered,
      List.append_assoc]
  prompt := h.prompt
  unbroken i hLt := by
    rw [List.length_append, List.length_singleton, Nat.lt_succ_iff_lt_or_eq] at hLt
    rcases hLt with hOld | rfl
    · exact h.unbroken i hOld
    · exact hWhole
  goesOn := h.goesOn
  calm := h.calm

namespace Told

variable {upshot : Upshot}

/-- All messages but the last one have been answered, and the last one as far as it asks for it. -/
theorem answered (h : Told signal machine source line heard sent waiting upshot) :
    (machine.fold source heard).upshots.filterMap answer? =
      sent.map (·.2) ++ (answer? upshot).toList := by
  obtain ⟨earlier, hLast, hEarlier⟩ := h.last
  rw [hLast, List.filterMap_append, hEarlier]
  cases hAnswer : answer? upshot <;> simp [hAnswer]

theorem goesOnStill (h : Told signal machine source line heard sent waiting upshot)
    (hGoesOn : continues upshot) :
    ∀ other ∈ (machine.fold source heard).upshots, continues other := by
  obtain ⟨earlier, hLast, -⟩ := h.last
  have hEarlier := h.goesOn
  rw [hLast, List.dropLast_concat] at hEarlier
  rw [hLast]
  intro other hMem
  rcases List.mem_append.mp hMem with hOld | hNew
  · exact hEarlier other hOld
  · rwa [List.mem_singleton.mp hNew]

/-- A message that came to nothing. -/
theorem ignores (h : Told signal machine source line heard sent waiting (.ok .ignore))
    (hCalm : NotBefore signal (machine.runTime source heard)) :
    Underway signal machine source line heard sent waiting where
  toProgress := h.toProgress
  answered := h.answered.trans (List.append_nil _)
  goesOnStill := h.goesOnStill rfl
  calmStill := hCalm

/-- A message that the line takes. -/
theorem sends (h : Told signal machine source line heard sent waiting upshot)
    (hAnswer : answer? upshot = some message) (hGoesOn : continues upshot)
    (hCalm : NotBefore signal (machine.runTime source heard))
    (hWhole : line.brokenAfter ≠ some (line.sent.length + sent.length)) (now : Nat) :
    Underway signal machine source line heard (sent ++ [(now, message)])
      (waiting ++ line.replies[sent.length]?.getD []) where
  toProgress := h.toProgress.send hWhole now message
  answered := by
    rw [h.answered, hAnswer, List.map_append]
    rfl
  goesOnStill := h.goesOnStill hGoesOn
  calmStill := hCalm

/-- A message that the line refuses. -/
theorem breaks (h : Told signal machine source line heard sent waiting upshot)
    (hAnswer : answer? upshot = some message)
    (hCalm : NotBefore signal (machine.runTime source heard))
    (hBroken : line.brokenAfter = some (line.sent.length + sent.length)) :
    Driven signal machine source line ⟨.error (.error line.breakage),
      line.advanced sent waiting, machine.runTime source heard,
      (machine.fold source heard).source⟩
      heard sent waiting (some message) none where
  toProgress := h.toProgress
  left := rfl
  drawn := rfl
  answered := by
    rw [h.answered, hAnswer]
    exact (List.append_nil _).symm
  calmUnlessRecalled _ := hCalm
  verdict := by
    obtain ⟨earlier, hLast, -⟩ := h.last
    exact .breaks hLast hAnswer hBroken

/-- The last message, taken by the line. -/
theorem halts (h : Told signal machine source line heard sent waiting (.ok (.halt message)))
    (hCalm : NotBefore signal (machine.runTime source heard))
    (hWhole : line.brokenAfter ≠ some (line.sent.length + sent.length)) (now : Nat) :
    Driven signal machine source line ⟨.ok (machine.fold source heard).machine.data,
      line.advanced (sent ++ [(now, message)]) (waiting ++ line.replies[sent.length]?.getD []),
      machine.runTime source heard, (machine.fold source heard).source⟩
      heard (sent ++ [(now, message)]) (waiting ++ line.replies[sent.length]?.getD [])
      none none where
  toProgress := h.toProgress.send hWhole now message
  left := rfl
  drawn := rfl
  answered := by simp [h.answered, answer?, Reaction.message?]
  calmUnlessRecalled _ := hCalm
  verdict := by
    obtain ⟨earlier, hLast, -⟩ := h.last
    exact .halts hLast

/-- A failure of the machine. -/
theorem fails {failure : Failure PartyError}
    (h : Told signal machine source line heard sent waiting (.error failure))
    (hCalm : NotBefore signal (machine.runTime source heard)) :
    Driven signal machine source line ⟨.error failure, line.advanced sent waiting,
      machine.runTime source heard, (machine.fold source heard).source⟩
      heard sent waiting none none where
  toProgress := h.toProgress
  left := rfl
  drawn := rfl
  answered := h.answered.trans (List.append_nil _).symm
  calmUnlessRecalled _ := hCalm
  verdict := by
    obtain ⟨earlier, hLast, -⟩ := h.last
    exact .fails hLast

/-- A re-send whose backoff a signal interrupts. -/
theorem recalls (h : Told signal machine source line heard sent waiting (.ok (.resend message)))
    {time : Nat} (hSignal : signal = some time) (hEarly : time < machine.runTime source heard) :
    Driven signal machine source line ⟨.error (.error .cancelled),
      line.advanced sent waiting, time, (machine.fold source heard).source⟩
      heard sent waiting none (some message) where
  toProgress := h.toProgress
  left := rfl
  drawn := rfl
  answered := by
    rw [h.answered]
    simp [answer?, Reaction.message?]
  calmUnlessRecalled hNone := by cases hNone
  verdict := by
    obtain ⟨earlier, hLast, -⟩ := h.last
    exact .recalls hLast hSignal hEarly

/-- Whether the line takes the message or refuses it. -/
theorem transmit (h : Told signal machine source line heard sent waiting upshot)
    (hAnswer : answer? upshot = some message) (hGoesOn : continues upshot)
    (hCalm : NotBefore signal (machine.runTime source heard)) :
    Leads signal machine source line ((machine.fold source heard).machine.transmit
      (line.advanced sent waiting) (machine.runTime source heard)
      (machine.fold source heard).source message) := by
  rw [Machine.transmit, Line.send_advanced]
  by_cases hBroken : line.brokenAfter = some (line.sent.length + sent.length)
  · rw [if_pos hBroken]
    exact .off (h.breaks hAnswer hCalm hBroken)
  · rw [if_neg hBroken]
    exact .on (h.sends hAnswer hGoesOn hCalm hBroken _)

/-- What a turn leads to once something has come of its message. -/
theorem proceed {reaction : Reaction} {now : Nat}
    (h : Told signal machine source line heard sent waiting (.ok reaction))
    (hTime : machine.runTime source heard = now + respite machine.policy (.ok reaction))
    (hCalm : NotBefore signal now) :
    Leads signal machine source line ((machine.fold source heard).machine.proceed signal
      (line.advanced sent waiting) now (machine.fold source heard).source reaction) := by
  cases reaction with
  | ignore =>
      obtain rfl : machine.runTime source heard = now := hTime
      exact .on (h.ignores hCalm)
  | send message =>
      obtain rfl : machine.runTime source heard = now := hTime
      exact h.transmit rfl rfl hCalm
  | halt message =>
      obtain rfl : machine.runTime source heard = now := hTime
      rw [Machine.proceed, Line.send_advanced]
      by_cases hBroken : line.brokenAfter = some (line.sent.length + sent.length)
      · rw [if_pos hBroken]
        exact .off (h.breaks rfl hCalm hBroken)
      · rw [if_neg hBroken]
        exact .off (h.halts hCalm hBroken _)
  | resend message =>
      have hDue : machine.runTime source heard =
          now + pause (machine.fold source heard).machine.policy.backoff := by
        rw [hTime, policy_fold]
        rfl
      rw [Machine.proceed, ← hDue]
      cases hInterrupt : interrupt? signal now (machine.runTime source heard) with
      | some time =>
          obtain ⟨hSignal, hEarly⟩ := (interrupt?_eq_some_iff hCalm).mp hInterrupt
          exact .off (h.recalls hSignal hEarly)
      | none => exact h.transmit rfl rfl ((interrupt?_eq_none_iff hCalm).mp hInterrupt)

end Told

/-- A message that arrives is handed to the machine, and its outcome followed. -/
theorem receive_eq (now : Nat) : machine.receive signal line now source message =
    match (machine.onMessage source message).outcome with
    | .error failure =>
        .stop ⟨.error failure, line, now, (machine.onMessage source message).source⟩
    | .ok reaction => (machine.onMessage source message).machine.proceed signal line now
        (machine.onMessage source message).source reaction := by
  rw [receive]
  generalize machine.onMessage source message = delivery
  obtain ⟨outcome, after, later⟩ := delivery
  cases outcome <;> rfl

/-- What a turn leads to once its message has arrived in time. -/
theorem Underway.receive (h : Underway signal machine source line heard sent (arrival :: rest))
    (hPrompt : pause arrival.delay ≤ machine.policy.replyTimeout)
    (hCalm : NotBefore signal (machine.runTime source heard + pause arrival.delay)) :
    Leads signal machine source line ((machine.fold source heard).machine.receive signal
      (line.advanced sent rest) (machine.runTime source heard + pause arrival.delay)
      (machine.fold source heard).source arrival.message) := by
  have hTold := h.hear hPrompt
  have hTime := machine.runTime_concat source heard arrival
  have hFold := machine.fold_concat source heard arrival
  rw [receive_eq]
  generalize hDelivery : (machine.fold source heard).machine.onMessage
    (machine.fold source heard).source arrival.message = delivery at hTold hTime
  rw [Fed.hear, hDelivery] at hFold
  have hMachine : delivery.machine = (machine.fold source (heard ++ [arrival])).machine := by
    rw [hFold]
  have hSource : delivery.source = (machine.fold source (heard ++ [arrival])).source := by
    rw [hFold]
  rw [turnTime, ← Nat.add_assoc] at hTime
  rw [hMachine, hSource]
  cases hOutcome : delivery.outcome with
  | error failure =>
      rw [hOutcome] at hTold hTime
      have hNow : machine.runTime source heard + pause arrival.delay =
          machine.runTime source (heard ++ [arrival]) := hTime.symm
      rw [hNow] at hCalm ⊢
      exact .off (hTold.fails hCalm)
  | ok reaction =>
      rw [hOutcome] at hTold hTime
      exact hTold.proceed hTime hCalm

/-- A run that ends while the party waits. -/
theorem Underway.stops (h : Underway signal machine source line heard sent waiting)
    {now : Nat} {result : Except (Failure PartyError) L}
    (hVerdict : Verdict signal machine source line heard sent waiting none none now result) :
    Driven signal machine source line ⟨result, line.advanced sent waiting, now,
      (machine.fold source heard).source⟩ heard sent waiting none none where
  toProgress := h.toProgress
  left := rfl
  drawn := rfl
  answered := by simp [h.answered]
  calmUnlessRecalled _ := h.calmStill
  verdict := hVerdict

/-- One turn. -/
theorem Underway.turn (h : Underway signal machine source line heard sent waiting) :
    Leads signal machine source line ((machine.fold source heard).machine.turn signal
      (line.advanced sent waiting) (machine.runTime source heard)
      (machine.fold source heard).source) := by
  have hDeadline : (machine.fold source heard).machine.deadline (machine.runTime source heard) =
      machine.runTime source heard + machine.policy.replyTimeout := by
    rw [deadline, policy_fold]
  rw [Machine.turn, hDeadline]
  split
  case h_1 hNone =>
    obtain rfl : waiting = [] := hNone
    split
    case h_1 hDry => exact .off (h.stops (.closes h.goesOnStill rfl hDry))
    case h_2 hDry =>
      split
      case h_1 time hInterrupt =>
        obtain ⟨hSignal, hEarly⟩ := (interrupt?_eq_some_iff h.calmStill).mp hInterrupt
        exact .off (h.stops (.cancels h.goesOnStill (fun _ => hDry) hSignal hEarly (by simp)))
      case h_2 hInterrupt =>
        have hCalm := (interrupt?_eq_none_iff h.calmStill).mp hInterrupt
        exact .off (h.stops (.tires h.goesOnStill (.inl ⟨rfl, hDry⟩) hCalm))
  case h_2 arrival rest hSome =>
    obtain rfl : waiting = arrival :: rest := hSome
    split
    case h_1 time hInterrupt =>
      obtain ⟨hSignal, hEarly⟩ := (interrupt?_eq_some_iff h.calmStill).mp hInterrupt
      obtain ⟨hBefore, hPatient⟩ := Nat.lt_min.mp hEarly
      refine .off (h.stops (.cancels h.goesOnStill (by simp) hSignal hPatient ?_))
      rintro _ _ ⟨⟩
      exact hBefore
    case h_2 hInterrupt =>
      have hCalm := (interrupt?_eq_none_iff h.calmStill).mp hInterrupt
      split
      case isTrue hLate =>
        have hLong : machine.policy.replyTimeout < pause arrival.delay := by omega
        refine .off (h.stops (.tires h.goesOnStill (.inr ⟨arrival, rest, rfl, hLong⟩) ?_))
        intro time hSignal
        have hTime := hCalm time hSignal
        omega
      case isFalse hSoon =>
        have hPrompt : pause arrival.delay ≤ machine.policy.replyTimeout := by omega
        refine h.receive hPrompt fun time hSignal => ?_
        have hTime := hCalm time hSignal
        omega

section Turns

variable {now : Nat} {current : Machine S L ρ} {left : Line} {drawn : ρ}

theorem Leads.turn (h : Leads signal machine source line (.go current left now drawn)) :
    Leads signal machine source line (current.turn signal left now drawn) := by
  cases h with
  | on hUnderway => exact hUnderway.turn

/-- A whole run, by induction on its turns. -/
theorem Leads.run (h : Leads signal machine source line (.go current left now drawn)) :
    Leads signal machine source line (.stop (current.run signal left now drawn)) := by
  fun_induction Machine.run signal current left now drawn with
  | case1 current left now drawn ending hTurn => exact hTurn ▸ h.turn
  | case2 current left now drawn next rest later source hTurn ih => exact ih (hTurn ▸ h.turn)

end Turns

/-- A machine that has halted has done so last. -/
theorem Progress.eq_of_halt_mem (h : Progress signal machine source line heard sent waiting)
    {earlier : List Upshot} {upshot : Upshot}
    (hLast : (machine.fold source heard).upshots = earlier ++ [upshot])
    (hHalt : .ok (.halt message) ∈ (machine.fold source heard).upshots) :
    upshot = .ok (.halt message) := by
  have hGoesOn := h.goesOn
  rw [hLast, List.dropLast_concat] at hGoesOn
  rw [hLast] at hHalt
  rcases List.mem_append.mp hHalt with hEarlier | hSame
  · cases hGoesOn _ hEarlier
  · exact (List.mem_singleton.mp hSame).symm

section Ending

variable {ending : Ending L ρ} {refused recalled : Option Message}

/-- A run succeeds exactly when its machine has halted and the last message was sent. -/
theorem Driven.succeeds_iff
    (h : Driven signal machine source line ending heard sent waiting refused recalled) (data : L) :
    ending.result = .ok data ↔
      (∃ message, .ok (.halt message) ∈ (machine.fold source heard).upshots) ∧ refused = none ∧
        data = (machine.fold source heard).machine.data := by
  have hVerdict := h.verdict
  generalize ending.elapsed = elapsed, ending.result = result at hVerdict
  cases hVerdict with
  | @halts earlier message hLast =>
      constructor
      · rintro ⟨⟩
        exact ⟨⟨message, by simp [hLast]⟩, rfl, rfl⟩
      · rintro ⟨-, -, rfl⟩
        rfl
  | fails hLast | recalls hLast =>
      refine iff_of_false nofun ?_
      rintro ⟨⟨message, hHalt⟩, -⟩
      cases h.eq_of_halt_mem hLast hHalt
  | breaks => exact iff_of_false nofun (by simp)
  | closes hGoesOn | tires hGoesOn | cancels hGoesOn =>
      refine iff_of_false nofun ?_
      rintro ⟨⟨message, hHalt⟩, -⟩
      cases hGoesOn _ hHalt

/-- A re-send whose backoff is not over when the signal is given is the last that a run comes to,
and it is not sent. -/
theorem Driven.recalled_of_early
    (h : Driven signal machine source line ending heard sent waiting refused recalled)
    {time : Nat} {early : List Arrival} (hSignal : signal = some time) (hEarly : early <+: heard)
    (hLast : (machine.fold source early).upshots.getLast? = some (.ok (.resend message)))
    (hTime : time < machine.runTime source early) :
    early = heard ∧ recalled = some message ∧ ending.result = .error (.error .cancelled) := by
  have hHeard : machine.runTime source early ≤ machine.runTime source heard :=
    runTime_le_of_isPrefix hEarly
  -- Had more been heard, the signal would have been given before the last of it.
  have hSame : early = heard := by
    obtain ⟨later, rfl⟩ := hEarly
    cases later using List.reverseRecOn with
    | nil => exact (List.append_nil early).symm
    | append_singleton later arrival =>
        have hCalm := h.calm time hSignal
        rw [← List.append_assoc, List.dropLast_concat] at hCalm
        have hBefore : machine.runTime source early ≤ machine.runTime source (early ++ later) :=
          runTime_le_of_isPrefix ⟨later, rfl⟩
        omega
  subst hSame
  have hVerdict := h.verdict
  have hCalm := h.calmUnlessRecalled
  generalize ending.elapsed = elapsed, ending.result = result at hVerdict
  cases hVerdict with
  | recalls hUpshots =>
      rw [hUpshots, List.getLast?_concat] at hLast
      cases hLast
      exact ⟨rfl, rfl, rfl⟩
  | halts | fails | breaks | closes | tires | cancels =>
      have hGiven := hCalm rfl time hSignal
      omega

end Ending

/-- A run and the fold of its machine over the messages that it hears. -/
structure Follows (signal : Option Nat) (machine : Machine S L ρ) (source : ρ) (line : Line)
    (ending : Ending L ρ) (heard : List Arrival) (sent : List (Nat × Message))
    (waiting : List Arrival) (refused recalled : Option Message) : Prop
    extends Driven signal machine source line ending heard sent waiting refused recalled where
  /-- It succeeds exactly when the fold halts and the last message is sent, with the fold's data. -/
  succeeds : ∀ data, ending.result = .ok data ↔
    (∃ message, .ok (.halt message) ∈ (machine.fold source heard).upshots) ∧ refused = none ∧
      data = (machine.fold source heard).machine.data
  /-- A signal before the end of a backoff cancels the run, and nothing is sent once more. -/
  heeds : ∀ time early message, signal = some time → early <+: heard →
    (machine.fold source early).upshots.getLast? = some (.ok (.resend message)) →
    time < machine.runTime source early →
    early = heard ∧ recalled = some message ∧ ending.result = .error (.error .cancelled)

/-- Every run follows the fold of its machine, whatever its line does and whenever it is
cancelled. -/
theorem run_follows_fold (signal : Option Nat) (machine : Machine S L ρ) (line : Line)
    (source : ρ) : ∃ heard sent waiting refused recalled,
      Follows signal machine source line (machine.run signal line 0 source) heard sent waiting
        refused recalled := by
  have hBegins : Leads signal machine source line (.go machine line 0 source) := by
    have hStart := Leads.on (underway_nil signal machine source line)
    rwa [Line.advanced_nil] at hStart
  cases hBegins.run with
  | @off _ heard sent waiting refused recalled hDriven =>
      exact ⟨heard, sent, waiting, refused, recalled, hDriven, hDriven.succeeds_iff,
        fun _ _ _ => hDriven.recalled_of_early⟩

end CipherRelay.Party.Machine
