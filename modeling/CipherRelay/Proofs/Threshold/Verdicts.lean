import CipherRelay.Proofs.Threshold.Manners
/-!
Verdicts. Alice and Bob look at the joint decryption of each operation once, in order, whatever they
are sent and however often. What they note is what the shares add up to compared to what the
operation should give, so no order of messages makes a party pass that has not seen all three as
expected.
-/
namespace CipherRelay.Threshold

open Party Scheme

/-- A joint decryption that has been looked at, and what came of the message with the share. -/
structure Examination where
  operation : Operation
  /-- What the two shares add up to. -/
  fused : List Int64
  /-- What the operation should decrypt to. -/
  foreseen : Option (List Int64)
  upshot : Upshot

/-- Whether a joint decryption is as it should be. -/
def Examination.confirms (examination : Examination) : Bool :=
  examination.foreseen = some examination.fused

/-- How a role looks at joint decryptions. -/
structure Examiner (S : Type) where
  manner : Manner S Knowledge
  /-- The kind of the other party's share of an operation. -/
  share : Operation → ArtifactKind
  /-- The operation whose shares are fused in a state. -/
  examines : S → Option Operation
  /-- The operations whose shares have been fused by the time a state is entered. -/
  done : S → List Operation
  /-- What the share in a payload and the party's own add up to, as far as they do. -/
  joint? : Knowledge → Operation → Bytes → Option (List Int64)

namespace Examiner

variable {S ρ : Type} [DecidableEq S] [ToString S]

/-- The joint decryption that a message makes a machine look at. -/
def examination? (examiner : Examiner S) (machine : Machine S Knowledge ρ) (message : Message)
    (upshot : Upshot) : Option Examination := do
  let operation ← examiner.examines machine.state
  if machine.halted ∨ message.tag ≠ .send (examiner.share operation) then none
  else
    let fused ← examiner.joint? machine.data operation message.payload
    return ⟨operation, fused, machine.data.foreseen? operation, upshot⟩

/-- All joint decryptions that some messages make a machine look at. -/
def examinations (examiner : Examiner S) (machine : Machine S Knowledge ρ) :
    List (ρ × Message) → List Examination
  | [] => []
  | (source, message) :: rest =>
      let delivery := machine.onMessage source message
      (examiner.examination? machine message delivery.outcome).toList ++
        examiner.examinations delivery.machine rest

/-- Whether a table looks at joint decryptions in an examiner's way. -/
structure Rules (examiner : Examiner S) (table : StepTable S Knowledge ρ) : Prop where
  governs : examiner.manner.Governs table
  trigger : ∀ state operation, examiner.examines state = some operation →
    ∃ step, table.get? state = some step ∧ step.trigger = .send (examiner.share operation)
  does : ∀ state message known next after, examiner.manner.does state message known next after →
    next.Enters (fun state' =>
        examiner.done state' = examiner.done state ++ (examiner.examines state).toList) ∧
      Knowledge.Notes ((examiner.examines state).map fun operation =>
        (operation, examiner.joint? known operation message.payload)) known after
  fails : ∀ state message known error after,
    examiner.manner.fails state message known error after →
      after.verified = known.verified ∧ after.unrefuted = known.unrefuted ∧
        ∀ operation, examiner.examines state = some operation →
          examiner.joint? known operation message.payload = none
  /-- The operations are looked at in their order. -/
  order : ∀ state, examiner.done state ++ (examiner.examines state).toList <+: Operation.all

variable {examiner : Examiner S} {machine later : Machine S Knowledge ρ}

/-- How a machine and what it has become go together with what it has looked at in between. -/
structure Noted (examiner : Examiner S) (entries : List Examination)
    (machine later : Machine S Knowledge ρ) : Prop where
  verified : later.data.verified =
    machine.data.verified ++ (entries.filter (·.confirms)).map (·.operation)
  unrefuted : later.data.unrefuted = (machine.data.unrefuted && entries.all (·.confirms))
  accepted : ∀ entry ∈ entries, ∃ reaction, entry.upshot = .ok reaction
  silent : machine.halted = true → entries = [] ∧ later.halted = true
  order : examiner.done machine.state ++ entries.map (·.operation) <+: Operation.all
  done : later.halted = false →
    examiner.done later.state = examiner.done machine.state ++ entries.map (·.operation)

omit [DecidableEq S] [ToString S] in
/-- What has been looked at first comes before what is looked at later. -/
theorem Noted.trans {last : Machine S Knowledge ρ} {entries more : List Examination}
    (h : examiner.Noted entries machine later) (hMore : examiner.Noted more later last) :
    examiner.Noted (entries ++ more) machine last := by
  constructor
  case verified => rw [hMore.verified, h.verified, List.filter_append, List.map_append,
    List.append_assoc]
  case unrefuted => rw [hMore.unrefuted, h.unrefuted, List.all_append, Bool.and_assoc]
  case accepted =>
    intro entry hMem
    exact (List.mem_append.mp hMem).elim (h.accepted entry) (hMore.accepted entry)
  case silent =>
    intro hHalted
    obtain ⟨rfl, hLater⟩ := h.silent hHalted
    exact hMore.silent hLater
  all_goals rw [List.map_append, ← List.append_assoc]
  case order =>
    by_cases hLater : later.halted = true
    · obtain ⟨rfl, -⟩ := hMore.silent hLater
      simpa using h.order
    · rw [← h.done (Bool.not_eq_true _ ▸ hLater)]
      exact hMore.order
  case done =>
    intro hLast
    by_cases hLater : later.halted = true
    · rw [(hMore.silent hLater).2] at hLast
      cases hLast
    · rw [← h.done (Bool.not_eq_true _ ▸ hLater)]
      exact hMore.done hLast

variable {table : StepTable S Knowledge ρ} {message : Message} {upshot : Upshot}

omit [ToString S] in
/-- Only a message that fires the step of an operation makes a machine look at its shares. -/
theorem Rules.examination?_of_not_fires (h : examiner.Rules table) (hTable : machine.table = table)
    (hStill : ¬machine.Fires message) : examiner.examination? machine message upshot = none := by
  unfold examination?
  cases hExamines : examiner.examines machine.state with
  | none => rfl
  | some operation =>
      obtain ⟨step, hStep, hTrigger⟩ := h.trigger _ _ hExamines
      refine if_pos ?_
      by_contra hNot
      rw [not_or, Bool.not_eq_true, ne_eq, Classical.not_not] at hNot
      exact hStill ⟨hNot.1, step, hTable ▸ hStep, hNot.2.trans hTrigger.symm⟩

omit [ToString S] in
/-- A message that fires makes a machine look at the shares of its operation, if they fuse. -/
theorem Rules.examination?_of_fires (h : examiner.Rules table) (hTable : machine.table = table)
    (hFires : machine.Fires message) : examiner.examination? machine message upshot =
      (examiner.examines machine.state).bind fun operation =>
        (examiner.joint? machine.data operation message.payload).map fun fused =>
          ⟨operation, fused, machine.data.foreseen? operation, upshot⟩ := by
  unfold examination?
  cases hExamines : examiner.examines machine.state with
  | none => rfl
  | some operation =>
      obtain ⟨step, hStep, hTrigger⟩ := h.trigger _ _ hExamines
      obtain ⟨hLive, other, hOther, hTag⟩ := hFires
      rw [hTable, hStep] at hOther
      cases hOther
      have hHeard : ¬(machine.halted ∨ message.tag ≠ .send (examiner.share operation)) := by
        simp [hLive, hTag, hTrigger]
      rw [Option.bind_eq_bind, Option.bind_some, if_neg hHeard, Option.bind_some]
      cases examiner.joint? machine.data operation message.payload <;> rfl

omit [DecidableEq S] [ToString S] in
/-- A machine that looks at nothing has nothing to note. -/
theorem Noted.nothing (hPrefix : examiner.done machine.state <+: Operation.all)
    (hVerified : later.data.verified = machine.data.verified)
    (hUnrefuted : later.data.unrefuted = machine.data.unrefuted)
    (hHalted : machine.halted = true → later.halted = true)
    (hDone : later.halted = false → examiner.done later.state = examiner.done machine.state) :
    examiner.Noted [] machine later where
  verified := by rw [hVerified, List.filter_nil, List.map_nil, List.append_nil]
  unrefuted := by rw [hUnrefuted, List.all_nil, Bool.and_true]
  accepted := by simp
  silent hLeft := ⟨rfl, hHalted hLeft⟩
  order := by rwa [List.map_nil, List.append_nil]
  done hLive := by rw [hDone hLive, List.map_nil, List.append_nil]

omit [ToString S] in
/-- A machine whose step succeeds notes the joint decryption that it has looked at, if any. -/
theorem Rules.noted (h : examiner.Rules table) (hTable : machine.table = table)
    (hFires : machine.Fires message) (reaction : Reaction)
    (hNotes : Knowledge.Notes ((examiner.examines machine.state).map fun operation =>
        (operation, examiner.joint? machine.data operation message.payload))
      machine.data later.data)
    (hDone : later.halted = false → examiner.done later.state =
      examiner.done machine.state ++ (examiner.examines machine.state).toList) :
    examiner.Noted (examiner.examination? machine message (.ok reaction)).toList machine later := by
  have hOrder := h.order machine.state
  rw [h.examination?_of_fires hTable hFires]
  cases hExamines : examiner.examines machine.state with
  | none =>
      rw [hExamines] at hNotes hDone hOrder
      rw [Option.toList_none, List.append_nil] at hDone hOrder
      exact .nothing hOrder hNotes.1 hNotes.2 (fun hLeft => by simp [hFires.1] at hLeft) hDone
  | some operation =>
      rw [hExamines] at hNotes hDone hOrder
      obtain ⟨fused, want, hJoint, hWant, hVerified, hUnrefuted⟩ := hNotes
      rw [Option.bind_some, hJoint, Option.map_some, Option.toList_some]
      have hConfirms : Examination.confirms
          ⟨operation, fused, machine.data.foreseen? operation, .ok reaction⟩ =
            decide (fused = want) := by
        simp [Examination.confirms, hWant, eq_comm]
      constructor
      case verified =>
        rw [hVerified, List.filter_cons, List.filter_nil, hConfirms]
        by_cases hSame : fused = want <;> simp [hSame]
      case unrefuted => rw [hUnrefuted, List.all_cons, List.all_nil, Bool.and_true, hConfirms]
      case accepted => simp
      case silent => exact fun hLeft => by simp [hFires.1] at hLeft
      case order => exact hOrder
      case done => exact hDone

omit [ToString S] in
/-- A message that makes no crash. -/
theorem Rules.hear (h : examiner.Rules table) (hTable : machine.table = table)
    (hHears : examiner.manner.Hears machine message upshot later)
    (hCalm : ∀ crash, upshot ≠ .error (.crash crash)) :
    examiner.Noted (examiner.examination? machine message upshot).toList machine later := by
  have hPrefix : examiner.done machine.state <+: Operation.all :=
    (List.prefix_append _ _).trans (h.order machine.state)
  cases hHears with
  | rests attempts hStill =>
      rw [h.examination?_of_not_fires hTable hStill]
      exact .nothing hPrefix rfl rfl id fun _ => rfl
  | sends hFires hDoes =>
      have hDone := h.does _ _ _ _ _ hDoes
      exact h.noted hTable hFires _ hDone.2 fun _ => hDone.1
  | halts hFires hDoes =>
      exact h.noted hTable hFires _ (h.does _ _ _ _ _ hDoes).2 (by simp)
  | @fails error _ hFires hFails =>
      obtain ⟨hVerified, hUnrefuted, hJoint⟩ := h.fails _ _ _ _ _ hFails
      have hNone :
          examiner.examination? machine message (.error (.error error)) = none := by
        rw [h.examination?_of_fires hTable hFires, Option.bind_eq_none_iff]
        exact fun operation hExamines => by rw [hJoint operation hExamines, Option.map_none]
      rw [hNone]
      exact .nothing hPrefix hVerified hUnrefuted id fun _ => rfl
  | crashes => exact absurd rfl (hCalm _)

/-- Messages that make no crash. -/
theorem Rules.run (h : examiner.Rules table) (hTable : machine.table = table)
    (hSound : machine.halted = false → examiner.manner.sound machine.state machine.data)
    {turns : List (ρ × Message)} (hCalm : Calm (machine.upshots turns)) :
    examiner.Noted (examiner.examinations machine turns) machine (machine.after turns) := by
  -- By induction on the messages. Sound data make the next message keep to the manner again.
  induction turns generalizing machine with
  | nil =>
      have hPrefix := (List.prefix_append _ _).trans (h.order machine.state)
      exact .nothing hPrefix rfl rfl id fun _ => rfl
  | cons turn rest ih =>
      obtain ⟨source, message⟩ := turn
      have hHears := h.governs.hears hTable hSound source message
      have hNow (crash : Crash) :
          (machine.onMessage source message).outcome ≠ .error (.crash crash) :=
        fun hCrash => hCalm crash (hCrash ▸ List.mem_cons_self)
      have hTable' := (machine.onMessage_fixed source message).1.trans hTable
      exact (h.hear hTable hHears hNow).trans (ih hTable' (h.governs.sound_next hSound hHears hNow)
        fun crash hMem => hCalm crash (List.mem_cons_of_mem _ hMem))

theorem examinations_append (first second : List (ρ × Message)) :
    examiner.examinations machine (first ++ second) =
      examiner.examinations machine first ++
        examiner.examinations (machine.after first) second := by
  induction first generalizing machine with
  | nil => rfl
  | cons turn rest ih =>
      simp only [List.cons_append, examinations, Machine.after, ih, List.append_assoc]

/-- Whether the verdict of a machine rests on the joint decryptions that it has looked at. -/
structure Warranted (examiner : Examiner S) (start : Machine S Knowledge ρ)
    (turns : List (ρ × Message)) : Prop where
  /-- The verified operations are in order, and none is there twice. -/
  sublist : (start.after turns).data.verified.Sublist Operation.all
  nodup : (start.after turns).data.verified.Nodup
  /-- An operation is verified where a share of it has been accepted whose joint decryption was as
  it should be. -/
  verified_iff : ∀ operation, operation ∈ (start.after turns).data.verified ↔
    ∃ entry ∈ examiner.examinations start turns, entry.operation = operation ∧
      (∃ reaction, entry.upshot = .ok reaction) ∧ entry.foreseen = some entry.fused
  /-- No operation is looked at twice. -/
  once : ((examiner.examinations start turns).map (·.operation)).Nodup
  passed_iff : (start.after turns).data.passed ↔
    (start.after turns).data.verified = Operation.all
  /-- Once a joint decryption has been wrong, the machine does not pass any more. -/
  refuted : ∀ first second, turns = first ++ second →
    ∀ entry ∈ examiner.examinations start first, entry.foreseen ≠ some entry.fused →
      (start.after turns).data.passed = false

/-- What has been noted since the start warrants the verdict. -/
theorem Noted.warranted {start : Machine S Knowledge ρ} {turns : List (ρ × Message)}
    (h : examiner.Noted (examiner.examinations start turns) start (start.after turns))
    (hDone : examiner.done start.state = []) (hVerified : start.data.verified = [])
    (hUnrefuted : start.data.unrefuted = true) : examiner.Warranted start turns := by
  have hOrder := h.order
  have hAfter := h.verified
  have hAll := h.unrefuted
  rw [hDone, List.nil_append] at hOrder
  rw [hVerified, List.nil_append] at hAfter
  rw [hUnrefuted, Bool.true_and] at hAll
  have hOnce := hOrder.sublist.nodup (by decide)
  have hSublist : (start.after turns).data.verified.Sublist Operation.all :=
    hAfter ▸ (List.filter_sublist.map _).trans hOrder.sublist
  constructor
  case sublist => exact hSublist
  case nodup => exact hSublist.nodup (by decide)
  case verified_iff =>
    intro operation
    rw [hAfter, List.mem_map]
    constructor
    · rintro ⟨entry, hMem, rfl⟩
      obtain ⟨hMem, hConfirms⟩ := List.mem_filter.mp hMem
      exact ⟨entry, hMem, rfl, h.accepted entry hMem, of_decide_eq_true hConfirms⟩
    · rintro ⟨entry, hMem, rfl, -, hSame⟩
      exact ⟨entry, List.mem_filter.mpr ⟨hMem, decide_eq_true hSame⟩, rfl⟩
  case once => exact hOnce
  case passed_iff =>
    rw [Knowledge.passed, Bool.and_eq_true, beq_iff_eq]
    constructor
    · exact fun hPassed => hSublist.eq_of_length hPassed.2
    · intro hSame
      refine ⟨?_, by rw [hSame]⟩
      -- As many entries as there are operations leave none for a mismatch.
      have hLength := congrArg List.length (hAfter.symm.trans hSame)
      have hMost := hOrder.length_le
      rw [List.length_map] at hLength hMost
      rw [hAll, List.all_eq_true]
      refine List.length_filter_eq_length_iff.mp (Nat.le_antisymm ?_ ?_)
      · exact List.length_filter_le _ _
      · exact hLength ▸ hMost
  case refuted =>
    rintro first second rfl entry hMem hOther
    have hLater : entry ∈ examiner.examinations start (first ++ second) := by
      rw [examinations_append]
      exact List.mem_append_left _ hMem
    have hNone : (start.after (first ++ second)).data.unrefuted = false := by
      rw [hAll, List.all_eq_false]
      exact ⟨entry, hLater, by simpa [Examination.confirms] using hOther⟩
    rw [Knowledge.passed, hNone, Bool.false_and]

end Examiner

/-- Alice looks at what a lead share and her main share add up to. -/
def Alice.examiner : Examiner AliceState where
  manner := manner
  share := .partialLead
  examines := examines
  done := done
  joint? := joint?

/-- Bob looks at what a main share and his lead share add up to. -/
def Bob.examiner : Examiner BobState where
  manner := manner
  share := .partialMain
  examines := examines
  done := done
  joint? := joint?

variable {ρ : Type} [RandomSource ρ]

/-- Alice looks at the shares of an operation when Bob's arrives. -/
theorem Alice.rules : examiner.Rules (table : StepTable AliceState Knowledge ρ) where
  governs := governs
  trigger state operation hExamines := by
    cases state <;> cases hExamines
    exact ⟨_, get?_table _, rfl⟩
  does _ _ _ _ _ hDoes := ⟨hDoes.1.mono fun _ hEntered => hEntered.2, hDoes.2.2⟩
  fails state message known error after hFails := by
    rcases hFails with ⟨rfl, hJoint⟩ | ⟨rfl, ct, -, rfl⟩
    · exact ⟨rfl, rfl, hJoint⟩
    · exact ⟨rfl, rfl, by rintro _ ⟨⟩⟩
  order state := by
    cases state with
    | requestLead operation | sendMain operation => cases operation <;> decide
    | _ => decide

/-- Bob does so when hers arrives. -/
theorem Bob.rules : examiner.Rules (table : StepTable BobState Knowledge ρ) where
  governs := governs
  trigger state operation hExamines := by
    cases state <;> cases hExamines
    exact ⟨_, get?_table _, rfl⟩
  does _ _ _ _ _ hDoes := ⟨hDoes.1.mono fun _ hEntered => hEntered.2, hDoes.2.2⟩
  fails state message known error after hFails := by
    rcases hFails with ⟨rfl, hJoint⟩ | ⟨rfl, cc, multKey, -, -, -, -, rfl⟩
    · exact ⟨rfl, rfl, hJoint⟩
    · exact ⟨rfl, rfl, by rintro _ ⟨⟩⟩
  order state := by
    cases state with
    | sendLead operation | requestMain operation => cases operation <;> decide
    | _ => decide

/-- No order of messages makes Alice or Bob pass, or verify an operation, without the joint
decryptions that belong to it, as long as they do not crash. -/
theorem verdicts_are_warranted (policy : RetryPolicy) (turns : List (ρ × Message)) :
    (Calm ((Machine.start Alice.table {} policy).upshots turns) →
      Alice.examiner.Warranted (Machine.start Alice.table {} policy) turns) ∧
    (Calm ((Machine.start Bob.table {} policy).upshots turns) →
      Bob.examiner.Warranted (Machine.start Bob.table {} policy) turns) := by
  have hNone : Alice.way.sound .getMessage {} := rfl
  constructor
  · intro hCalm
    have hNoted := Alice.rules.run rfl ?_ hCalm
    · exact hNoted.warranted rfl rfl rfl
    · exact fun _ => hNone
  · intro hCalm
    have hNoted := Bob.rules.run rfl ?_ hCalm
    · exact hNoted.warranted rfl rfl rfl
    · exact fun _ => trivial

section Forgery

/-- A message that hands over an artifact. -/
def handing {α : Type} [Artifact α] (kind : ArtifactKind) (artifact : α) : Congruential × Message :=
  (⟨0⟩, .send kind (Artifact.encode artifact))

/-- Messages with keys, ciphertexts and shares that nobody has made. They lead Alice to the end. Her
first share comes too early, the share of the sum of the ciphertexts is wrong, and the right one
comes too late. -/
def Alice.forgery : List (Congruential × Message) :=
  [(⟨0⟩, .bare .serverAccept), handing .cryptoContext (⟨1, 3⟩ : Context),
    (⟨0⟩, .bare (.ack .rnd1PubKey)), (⟨0⟩, .bare (.ack .rnd1EvalMultKey)),
    (⟨0⟩, .bare (.ack .rnd1EvalSumKeys)), handing .rnd2SharedKey (⟨[0], [0]⟩ : PublicKey),
    handing .rnd2EvalMultAB (⟨[0], [0]⟩ : SwitchKey),
    handing .rnd2EvalMultBAB (⟨[0], [0]⟩ : SwitchKey),
    (⟨0⟩, .bare (.ack .rnd3EvalMultFinal)), handing .rnd2EvalSumKeysJoin RotationKeys.empty,
    handing .ct1 (⟨[0], [0]⟩ : Ciphertext), handing .ct2 (⟨[0], [0]⟩ : Ciphertext),
    handing .ct3 (⟨[0], [0]⟩ : Ciphertext), handing (.partialLead .sum) (⟨[2]⟩ : Share),
    handing (.partialLead .add) (⟨[2]⟩ : Share), handing (.partialLead .add) (⟨[1]⟩ : Share),
    (⟨0⟩, .bare (.ack (.partialMain .add))), handing (.partialLead .mult) (⟨[2]⟩ : Share),
    (⟨0⟩, .bare (.ack (.partialMain .mult))), handing (.partialLead .sum) (⟨[2]⟩ : Share)]

/-- As many zeros as Bob has inputs. -/
def noResidues : Residues :=
  List.replicate 12 0

/-- Messages that lead Bob to the end in the same way. The shares of the first two operations are
right, and the last one is wrong. -/
def Bob.forgery : List (Congruential × Message) :=
  let key : SwitchKey := ⟨noResidues, noResidues⟩
  let share : Share := ⟨noResidues⟩
  [(⟨0⟩, .bare .serverAccept), handing .cryptoContext (⟨12, 3⟩ : Context),
    handing .rnd1PubKey (⟨noResidues, noResidues⟩ : PublicKey), handing .rnd1EvalMultKey key,
    handing .rnd1EvalSumKeys (RotationKeys.ofList [(1, key), (2, key), (4, key), (8, key)]),
    (⟨0⟩, .bare (.ack .rnd2SharedKey)), (⟨0⟩, .bare (.ack .rnd2EvalMultAB)),
    (⟨0⟩, .bare (.ack .rnd2EvalMultBAB)), (⟨0⟩, .bare (.ack .rnd2EvalSumKeysJoin)),
    handing .rnd3EvalMultFinal key, (⟨0⟩, .bare (.ack .ct1)), (⟨0⟩, .bare (.ack .ct2)),
    (⟨0⟩, .bare (.ack .ct3)), (⟨0⟩, .bare (.ack (.partialLead .add))),
    handing (.partialMain .add) share, (⟨0⟩, .bare (.ack (.partialLead .mult))),
    handing (.partialMain .mult) share, (⟨0⟩, .bare (.ack (.partialLead .sum))),
    handing (.partialMain .sum) share]

/-- Forged messages that make neither party crash, and what they verify. -/
theorem forgeries_do_not_pass :
    (Calm ((Machine.start Alice.table {} {}).upshots Alice.forgery) ∧
      Alice.examiner.Warranted (Machine.start Alice.table {} {}) Alice.forgery ∧
      ((Machine.start Alice.table {} {}).after Alice.forgery).data.verified = [.mult, .sum] ∧
      ((Machine.start Alice.table {} {}).after Alice.forgery).data.passed = false) ∧
    (Calm ((Machine.start Bob.table {} {}).upshots Bob.forgery) ∧
      Bob.examiner.Warranted (Machine.start Bob.table {} {}) Bob.forgery ∧
      ((Machine.start Bob.table {} {}).after Bob.forgery).data.verified = [.add, .mult] ∧
      ((Machine.start Bob.table {} {}).after Bob.forgery).data.passed = false) := by
  have hAlice : Calm ((Machine.start Alice.table {} {}).upshots Alice.forgery) := by
    decide +kernel
  have hBob : Calm ((Machine.start Bob.table {} {}).upshots Bob.forgery) := by
    decide +kernel
  exact ⟨⟨hAlice, (verdicts_are_warranted {} Alice.forgery).1 hAlice, by decide +kernel⟩,
    hBob, (verdicts_are_warranted {} Bob.forgery).2 hBob, by decide +kernel⟩

end Forgery

end CipherRelay.Threshold
