import CipherRelay.Proofs.Party.Contracts
import CipherRelay.Proofs.Party.History
import Mathlib.Data.List.Basic
import Mathlib.Data.List.Nodup
/-!
The path of a role. Its states follow one another, each is entered once, and each but the first is
entered by sending one message, so the messages of a role are a sequence that is fixed in advance.
Whatever a machine hears, it sends a first part of this sequence and re-sends each message of it at
most as often as its policy allows; and it has what it needs as long as nothing has failed.
-/
namespace CipherRelay.Party

/-- What moves a machine: a message that is sent, or one with which it takes leave. -/
inductive Move
  | send (tag : Tag)
  | halt (tag : Tag)
  deriving DecidableEq, Repr

/-- The move in what has come of a message. -/
def Move.of? : Upshot → Option Move
  | .ok (.send message) => some (.send message.tag)
  | .ok (.halt message) => some (.halt message.tag)
  | _ => none

/-- The moves of a machine, in order. -/
def moves (upshots : List Upshot) : List Move :=
  upshots.filterMap Move.of?

/-- All messages that a machine has put on the wire, in order. -/
def messages (upshots : List Upshot) : List Message :=
  upshots.filterMap fun upshot => upshot.toOption.bind (·.message?)

section Upshots

variable (message : Message) (upshots : List Upshot)

theorem moves_send : moves (.ok (.send message) :: upshots) = .send message.tag :: moves upshots :=
  rfl

theorem moves_halt : moves (.ok (.halt message) :: upshots) = .halt message.tag :: moves upshots :=
  rfl

theorem moves_resend : moves (.ok (.resend message) :: upshots) = moves upshots := rfl

theorem messages_send : messages (.ok (.send message) :: upshots) = message :: messages upshots :=
  rfl

theorem messages_halt : messages (.ok (.halt message) :: upshots) = message :: messages upshots :=
  rfl

theorem messages_resend :
    messages (.ok (.resend message) :: upshots) = message :: messages upshots := rfl

end Upshots

/-- Whether a step was missing, or an action was given a tag that it does not know. -/
def Misled (upshot : Upshot) : Prop :=
  ∃ text, upshot = .error (.error (.unknownState text)) ∨
    upshot = .error (.error (.unexpectedTag text))

/-- Whether a piece of data was missing only after something else had failed. -/
def Supplied (upshots : List Upshot) : Prop :=
  ∀ before item later, upshots = before ++ .error (.error (.missingLocalState item)) :: later →
    ∃ failure, .error failure ∈ before

namespace Machine

variable {S L ρ : Type} [DecidableEq S] [ToString S]

/-- The states that a machine enters as it sends. -/
def entered (machine : Machine S L ρ) : List (ρ × Message) → List S
  | [] => []
  | (source, message) :: rest =>
      let delivery := machine.onMessage source message
      match delivery.outcome with
      | .ok (.send _) => delivery.machine.state :: delivery.machine.entered rest
      | _ => delivery.machine.entered rest

/-- Whether a machine that hears these messages keeps to a sequence of moves. -/
structure Walks (machine : Machine S L ρ) (route : List Move) (turns : List (ρ × Message)) :
    Prop where
  /-- It makes the moves one after another. -/
  moves : moves (machine.upshots turns) <+: route
  /-- It is in no state twice. -/
  once : (machine.state :: machine.entered turns).Nodup
  /-- It always has a step, and its actions know the tags that they are given. -/
  guided : ∀ upshot ∈ machine.upshots turns, ¬Misled upshot
  supplied : Supplied (machine.upshots turns)
  /-- It does not send more than its table and its policy allow. -/
  few : (messages (machine.upshots turns)).length ≤
    machine.table.size * (1 + machine.policy.maxAttempts.toNat)

variable {machine : Machine S L ρ}

/-- After the leave everything is ignored. -/
theorem upshots_of_halted (h : machine.halted = true) (turns : List (ρ × Message)) :
    machine.upshots turns = List.replicate turns.length (.ok .ignore) ∧
      machine.entered turns = [] := by
  induction turns with
  | nil => exact ⟨rfl, rfl⟩
  | cons turn rest ih =>
      have hIgnore : machine.onMessage turn.1 turn.2 = ⟨.ok .ignore, machine, turn.1⟩ := by
        simp [onMessage, h]
      simp [upshots, entered, hIgnore, ih, List.replicate_succ]

/-- A machine that has halted neither moves nor says anything. -/
theorem silent_of_halted (h : machine.halted = true) (turns : List (ρ × Message)) :
    moves (machine.upshots turns) = [] ∧ messages (machine.upshots turns) = [] := by
  rw [(upshots_of_halted h turns).1]
  exact ⟨List.filterMap_replicate_of_none rfl, List.filterMap_replicate_of_none rfl⟩

/-- Each move gives a machine the patience to send its message once more as often as its policy
allows; what is left of the patience of an earlier move comes on top. -/
theorem length_messages_add (h : machine.attempts ≤ machine.policy.maxAttempts)
    (turns : List (ρ × Message)) :
    (messages (machine.upshots turns)).length + machine.attempts.toNat ≤
      (moves (machine.upshots turns)).length * (1 + machine.policy.maxAttempts.toNat) +
        machine.policy.maxAttempts.toNat := by
  have hCount := UInt32.le_iff_toNat_le.mp h
  induction turns generalizing machine with
  | nil => simpa [upshots, messages, moves] using hCount
  | cons turn rest ih =>
      have hHears := machine.hears turn.1 turn.2
      rw [upshots]
      generalize machine.onMessage turn.1 turn.2 = delivery at hHears ⊢
      cases hHears with
      | left | lost | fails | tires | passes => exact ih h hCount
      | resends hRetries hOutbound hPatient =>
          have hSucc := toNat_succ_attempts hPatient
          have hMost := UInt32.lt_iff_toNat_lt.mp hPatient
          have hCount : (machine.attempts + 1).toNat ≤ machine.policy.maxAttempts.toNat := by omega
          have hRest := @ih { machine with attempts := machine.attempts + 1 }
            (UInt32.le_iff_toNat_le.mpr hCount) hCount
          rw [messages_resend, moves_resend, List.length_cons]
          simp only at hRest ⊢
          omega
      | @sends step sent state data after =>
          have hRest := @ih { machine with data, state, outbound := some sent, attempts := 0 }
            UInt32.zero_le (Nat.zero_le _)
          rw [messages_send, moves_send, List.length_cons, List.length_cons, Nat.succ_mul]
          simp only [UInt32.toNat_zero] at hRest ⊢
          omega
      | halts =>
          rw [messages_halt, moves_halt, (silent_of_halted rfl rest).1,
            (silent_of_halted rfl rest).2]
          simp only [List.length_singleton]
          omega

/-- A machine that has not sent anything sends each message of its moves as often as its policy
allows. -/
theorem length_messages_le (h : machine.outbound = none) (turns : List (ρ × Message)) :
    (messages (machine.upshots turns)).length ≤
      (moves (machine.upshots turns)).length * (1 + machine.policy.maxAttempts.toNat) := by
  induction turns generalizing machine with
  | nil => exact Nat.zero_le _
  | cons turn rest ih =>
      have hHears := machine.hears turn.1 turn.2
      rw [upshots]
      generalize machine.onMessage turn.1 turn.2 = delivery at hHears ⊢
      cases hHears with
      | left | lost | fails | passes => exact ih h
      | resends _ hOutbound | tires _ hOutbound => exact absurd (h.symm.trans hOutbound) (by simp)
      | @sends step sent state data after =>
          have hRest := @length_messages_add _ _ _ _ _
            { machine with data, state, outbound := some sent, attempts := 0 } UInt32.zero_le rest
          rw [messages_send, moves_send, List.length_cons, List.length_cons, Nat.succ_mul]
          simp only [UInt32.toNat_zero] at hRest ⊢
          omega
      | halts =>
          rw [messages_halt, moves_halt, (silent_of_halted rfl rest).1,
            (silent_of_halted rfl rest).2]
          simp only [List.length_singleton]
          omega

end Machine

section Supply

variable {upshots : List Upshot}

theorem supplied_of_ok (h : ∀ upshot ∈ upshots, ∃ reaction, upshot = .ok reaction) :
    Supplied upshots := by
  intro before item later hSplit
  obtain ⟨reaction, hOk⟩ := h (.error (.error (.missingLocalState item))) (by simp [hSplit])
  cases hOk

theorem supplied_ok (h : Supplied upshots) (reaction : Reaction) :
    Supplied (.ok reaction :: upshots) := by
  intro before item later hSplit
  cases before with
  | nil => simp at hSplit
  | cons first before =>
      obtain ⟨-, hSplit⟩ := List.cons.inj hSplit
      obtain ⟨failure, hMem⟩ := h before item later hSplit
      exact ⟨failure, List.mem_cons_of_mem _ hMem⟩

/-- After a failure of another kind anything may be missing. -/
theorem supplied_error {failure : Failure PartyError} (h : Tame True failure) :
    Supplied (.error failure :: upshots) := by
  intro before item later hSplit
  cases before with
  | nil =>
      obtain ⟨hFirst, -⟩ := List.cons.inj hSplit
      cases hFirst
      exact absurd trivial h
  | cons first before =>
      obtain ⟨rfl, -⟩ := List.cons.inj hSplit
      exact ⟨failure, List.mem_cons_self⟩

theorem not_misled_ok (reaction : Reaction) : ¬Misled (.ok reaction) := by
  rintro ⟨text, hUpshot | hUpshot⟩ <;> cases hUpshot

/-- A tame failure does not mean that something is wrong with the table. -/
theorem not_misled_of_tame {clean : Prop} {failure : Failure PartyError} (h : Tame clean failure) :
    ¬Misled (.error failure) := by
  rintro ⟨text, hUpshot | hUpshot⟩
  · cases hUpshot
    exact h
  · cases hUpshot
    exact h

end Supply

/-- The way of a role: its states in their order, the tag of the message that it has sent when it
waits in one of them, and what its data are like there. -/
structure Way (S L : Type) where
  role : Role
  path : List S
  asks : S → Option Tag
  /-- What holds of the data in a state, whatever has happened. -/
  sound : S → L → Prop
  /-- What holds of them in addition as long as nothing has failed. -/
  ready : S → L → Prop

namespace Way

variable {S L ρ : Type} {way : Way S L} {table : StepTable S L ρ} {clean : Prop} {later : List S}

/-- The moves that are left when these states are. -/
def onward (way : Way S L) (later : List S) : List Move :=
  (later.filterMap way.asks).map .send ++ [.halt (.disconnect way.role)]

/-- What an action is to decide in a state: it sends the message of the next state, for which it has
the data, or it takes leave in the last one. -/
def Leads (way : Way S L) (clean : Prop) (s : S) : Next S → L → Prop
  | .send message s', l => [s, s'] <:+: way.path ∧ way.asks s' = some message.tag ∧
      way.sound s' l ∧ (clean → way.ready s' l)
  | .halt message, _ => [s] <:+ way.path ∧ message.tag = .disconnect way.role

variable [DecidableEq S]

/-- Whether a table makes a machine go its way: there is a step for each state, and on its trigger
its action leads to the next state. -/
structure Guides (way : Way S L) (table : StepTable S L ρ) : Prop where
  start : way.path.head? = some table.initial
  nodup : way.path.Nodup
  size : table.size = way.path.length
  steps : ∀ s ∈ way.path, ∃ step, table.get? s = some step ∧
    ∀ message, message.tag = step.trigger → ∀ (clean : Prop) l, (clean → way.ready s l) →
      Action.Meets clean (way.sound s) l (step.action message) (way.Leads clean s)

/-- Whether a machine is on its way, with these states still to come. -/
structure On (way : Way S L) (table : StepTable S L ρ) (clean : Prop) (later : List S)
    (machine : Machine S L ρ) : Prop where
  table : machine.table = table
  live : machine.halted = false
  path : ∃ before, way.path = before ++ machine.state :: later
  sound : way.sound machine.state machine.data
  ready : clean → way.ready machine.state machine.data

/-- What can come of a message on the way. -/
inductive Goes (way : Way S L) (table : StepTable S L ρ) (clean : Prop) :
    List S → Delivery S L ρ → Prop
  | waits {later : List S} {reaction : Reaction} {machine : Machine S L ρ} {source : ρ}
      (quiet : Move.of? (.ok reaction) = none) (on : way.On table clean later machine) :
      Goes way table clean later ⟨.ok reaction, machine, source⟩
  | fails {later : List S} {failure : Failure PartyError} {machine : Machine S L ρ} {source : ρ}
      (tame : Tame clean failure) (on : way.On table False later machine) :
      Goes way table clean later ⟨.error failure, machine, source⟩
  | sends {later : List S} {message : Message} {machine : Machine S L ρ} {source : ρ}
      (asks : way.asks machine.state = some message.tag) (on : way.On table clean later machine) :
      Goes way table clean (machine.state :: later) ⟨.ok (.send message), machine, source⟩
  | halts {message : Message} {machine : Machine S L ρ} {source : ρ}
      (leave : message.tag = .disconnect way.role) (halted : machine.halted = true) :
      Goes way table clean [] ⟨.ok (.halt message), machine, source⟩

omit [DecidableEq S] in
/-- A state is in one place of a path only, so what follows it there follows it everywhere. -/
theorem later_eq {path before later before' later' : List S} {s : S} (hNodup : path.Nodup)
    (h : path = before ++ s :: later) (h' : path = before' ++ s :: later') : later = later' := by
  have hOnce : s ∉ before ∧ s ∉ later := by
    rw [h, List.nodup_append, List.nodup_cons] at hNodup
    exact ⟨fun hMem => hNodup.2.2 s hMem s List.mem_cons_self rfl, hNodup.2.1.1⟩
  exact ((List.append_cons_inj_of_notMem hOnce.1 hOnce.2).mp (h.symm.trans h')).2.2

variable [ToString S] {machine : Machine S L ρ}

/-- One message. -/
theorem On.goes (h : way.On table clean later machine) (hGuides : way.Guides table) (source : ρ)
    (message : Message) : way.Goes table clean later (machine.onMessage source message) := by
  obtain ⟨before, hPath⟩ := h.path
  obtain ⟨step, hStep, hAction⟩ := hGuides.steps machine.state (by simp [hPath])
  rw [← h.table] at hStep
  have hMeets (hTag : message.tag = step.trigger) :=
    hAction message hTag clean machine.data h.ready h.sound source
  have hHears := machine.hears source message
  generalize machine.onMessage source message = delivery at hHears
  cases hHears with
  | left hLeft => exact absurd (h.live.symm.trans hLeft) (by simp)
  | lost hLive hLost => exact absurd (hStep.symm.trans hLost) (by simp)
  | fails hLive hSame hTag hFails =>
      obtain rfl := Option.some.inj (hStep.symm.trans hSame)
      have hMeets := hMeets hTag
      rw [hFails] at hMeets
      exact .fails hMeets.1 ⟨h.table, h.live, h.path, hMeets.2, False.elim⟩
  | @sends _ sent state data after hLive hSame hTag hSends =>
      obtain rfl := Option.some.inj (hStep.symm.trans hSame)
      have hMeets := hMeets hTag
      rw [hSends] at hMeets
      obtain ⟨⟨before', rest, hNext⟩, hAsks, hSound, hReady⟩ := hMeets
      have hSplit : way.path = before' ++ machine.state :: state :: rest := by simp [← hNext]
      obtain rfl := later_eq hGuides.nodup hPath hSplit
      have hOn : way.On table clean rest
          { machine with data, state, outbound := some sent, attempts := 0 } :=
        ⟨h.table, h.live, ⟨before ++ [machine.state], by simp [hPath]⟩, hSound, hReady⟩
      exact .sends hAsks hOn
  | halts hLive hSame hTag hHalts =>
      obtain rfl := Option.some.inj (hStep.symm.trans hSame)
      have hMeets := hMeets hTag
      rw [hHalts] at hMeets
      obtain ⟨⟨before', hLast⟩, hLeave⟩ := hMeets
      obtain rfl := later_eq hGuides.nodup hPath hLast.symm
      exact .halts hLeave rfl
  | resends => exact .waits rfl ⟨h.table, h.live, h.path, h.sound, h.ready⟩
  | tires => exact .fails trivial ⟨h.table, h.live, h.path, h.sound, False.elim⟩
  | passes => exact .waits rfl h

/-- Any messages. -/
theorem On.run (h : way.On table clean later machine) (hGuides : way.Guides table)
    (turns : List (ρ × Message)) :
    moves (machine.upshots turns) <+: way.onward later ∧ machine.entered turns <+: later ∧
      (∀ upshot ∈ machine.upshots turns, ¬Misled upshot) ∧
      (clean → Supplied (machine.upshots turns)) := by
  induction turns generalizing machine clean later with
  | nil =>
      exact ⟨List.nil_prefix, List.nil_prefix, by simp [Machine.upshots],
        fun _ => supplied_of_ok (by simp [Machine.upshots])⟩
  | cons turn rest ih =>
      have hGoes := h.goes hGuides turn.1 turn.2
      rw [Machine.upshots, Machine.entered]
      generalize machine.onMessage turn.1 turn.2 = delivery at hGoes
      cases hGoes with
      | @waits _ reaction next source quiet on =>
          obtain ⟨hMoves, hEntered, hGuided, hSupplied⟩ := ih on
          have hSame : moves (.ok reaction :: next.upshots rest) = moves (next.upshots rest) :=
            List.filterMap_cons_none quiet
          refine ⟨hSame ▸ hMoves, ?_, List.forall_mem_cons.mpr ⟨not_misled_ok reaction, hGuided⟩,
            fun hClean => supplied_ok (hSupplied hClean) reaction⟩
          cases reaction <;> first | exact hEntered | cases quiet
      | fails tame on =>
          obtain ⟨hMoves, hEntered, hGuided, -⟩ := ih on
          refine ⟨hMoves, hEntered, List.forall_mem_cons.mpr ⟨not_misled_of_tame tame, hGuided⟩,
            fun hClean => supplied_error ?_⟩
          rwa [eq_true hClean] at tame
      | @sends later message next source asks on =>
          obtain ⟨hMoves, hEntered, hGuided, hSupplied⟩ := ih on
          have hOnward : way.onward (next.state :: later) =
              .send message.tag :: way.onward later := by
            simp [onward, asks]
          rw [moves_send, hOnward]
          exact ⟨(List.prefix_cons_inj _).mpr hMoves, (List.prefix_cons_inj _).mpr hEntered,
            List.forall_mem_cons.mpr ⟨not_misled_ok _, hGuided⟩,
            fun hClean => supplied_ok (hSupplied hClean) _⟩
      | @halts message next source leave halted =>
          have hSilent := Machine.silent_of_halted halted rest
          have hIgnored := Machine.upshots_of_halted halted rest
          have hQuiet : ∀ upshot ∈ next.upshots rest, ∃ reaction, upshot = .ok reaction := by
            rw [hIgnored.1]
            exact fun upshot hMem => ⟨.ignore, List.eq_of_mem_replicate hMem⟩
          rw [moves_halt, hSilent.1, leave, hIgnored.2]
          refine ⟨List.prefix_rfl, List.prefix_rfl,
            List.forall_mem_cons.mpr ⟨not_misled_ok _, fun upshot hMem => ?_⟩,
            fun _ => supplied_ok (supplied_of_ok hQuiet) _⟩
          obtain ⟨reaction, rfl⟩ := hQuiet upshot hMem
          exact not_misled_ok reaction

/-- A machine that a table makes go its way walks it under any traffic. -/
theorem Guides.walks (h : way.Guides table) {data : L} (hSound : way.sound table.initial data)
    (hReady : way.ready table.initial data) (policy : RetryPolicy) (turns : List (ρ × Message)) :
    (Machine.start table data policy).Walks (way.onward way.path.tail) turns := by
  have hPath : way.path = table.initial :: way.path.tail := (List.cons_head?_tail h.start).symm
  have hOn : way.On table True way.path.tail (Machine.start table data policy) :=
    ⟨rfl, rfl, ⟨[], hPath⟩, hSound, fun _ => hReady⟩
  obtain ⟨hMoves, hEntered, hGuided, hSupplied⟩ := hOn.run h turns
  refine ⟨hMoves, ?_, hGuided, hSupplied trivial, ?_⟩
  · have hPrefix :
        table.initial :: (Machine.start table data policy).entered turns <+: way.path := by
      rw [hPath]
      exact (List.prefix_cons_inj _).mpr hEntered
    exact h.nodup.sublist hPrefix.sublist
  · have hLength : (way.onward way.path.tail).length ≤ table.size := by
      have hTail := List.length_filterMap_le way.asks way.path.tail
      rw [h.size, hPath, onward, List.length_append, List.length_map, List.length_cons,
        List.tail_cons]
      exact Nat.succ_le_succ hTail
    calc (messages ((Machine.start table data policy).upshots turns)).length
        ≤ (moves ((Machine.start table data policy).upshots turns)).length *
            (1 + policy.maxAttempts.toNat) := Machine.length_messages_le rfl turns
      _ ≤ table.size * (1 + policy.maxAttempts.toNat) :=
          Nat.mul_le_mul_right _ (Nat.le_trans hMoves.length_le hLength)

end Way

end CipherRelay.Party
