import CipherRelay.Proofs.Party.Contracts
import CipherRelay.Proofs.Party.History
import CipherRelay.Proofs.Scheme.Refusals
/-!
Manners. What a party's actions do to its data when they succeed, what they leave behind when they
fail, and which contexts are to blame when they crash. The manner of a role says so state by state;
what follows for any messages in any order is worked out here once for all roles.
-/
namespace CipherRelay.Party

open Scheme

/-- Whether a message offers a context. -/
def Offers (message : Message) (cc : Context) : Prop :=
  message.tag = .send .cryptoContext ∧ Artifact.decode? message.payload = some cc

namespace Action

variable {L ρ α β : Type} {concerns : Context → Prop} {E : PartyError → L → Prop} {l : L}
  {Q : α → L → Prop} {R : β → L → Prop}

/-- Whether an action on these data comes to what `Q` says, fails as `E` says, or crashes for fault
of a context that it is concerned with. -/
def Ends (concerns : Context → Prop) (E : PartyError → L → Prop) (l : L) (action : Action L ρ α)
    (Q : α → L → Prop) : Prop :=
  ∀ source : ρ, match action (l, source) with
    | .ok value (after, _) => Q value after
    | .error (.error error) (after, _) => E error after
    | .error (.crash crash) _ => ∃ cc, concerns cc ∧ cc.Accounts crash

/-- What is left behind by a failure, or a context that is to blame for it. -/
def Faults (concerns : Context → Prop) (E : PartyError → L → Prop) : Failure PartyError → L → Prop
  | .error error, after => E error after
  | .crash crash, _ => ∃ cc, concerns cc ∧ cc.Accounts crash

/-- The judgement is a contract whose failures blame a context for a crash. -/
theorem ends_iff {action : Action L ρ α} :
    Ends concerns E l action Q ↔ Comes l action Q (Faults concerns E) := by
  refine forall_congr' fun source => ?_
  rcases action (l, source) with ⟨value, after⟩ | ⟨error | crash, after⟩
  · exact .rfl
  · exact .rfl
  · exact .rfl

namespace Ends

theorem pure {value : α} (h : Q value l) :
    Ends concerns E l (Pure.pure value : Action L ρ α) Q :=
  fun _ => h

theorem fail {error : PartyError} (h : E error l) :
    Ends concerns E l (Action.fail error : Action L ρ α) Q :=
  fun _ => h

/-- A part that has a contract of its own. -/
theorem bind {action : Action L ρ α} {f : α → Action L ρ β}
    (h : Ends concerns E l action fun value after => Ends concerns E after (f value) R) :
    Ends concerns E l (action >>= f) R :=
  ends_iff.mpr (.bind ((ends_iff.mp h).mono (fun _ _ => ends_iff.mp) fun _ _ => id))

/-- The last part of an action. -/
theorem last {action : Action L ρ α} (h : Ends concerns E l (action >>= Pure.pure) Q) :
    Ends concerns E l action Q := by
  rwa [bind_pure] at h

/-- The rest of an action sees the data as they are. -/
theorem data {f : L → Action L ρ β} (h : Ends concerns E l (f l) R) :
    Ends concerns E l (Action.data >>= f) R :=
  h

/-- The rest of an action works on the changed data. -/
theorem change {g : L → L} {f : Unit → Action L ρ β} (h : Ends concerns E (g l) (f ()) R) :
    Ends concerns E l (Action.change g >>= f) R :=
  h

theorem require {item : String} {piece : Option α} {f : α → Action L ρ β}
    (hMissing : piece = none → E (.missingLocalState item) l)
    (h : ∀ value, piece = some value → Ends concerns E l (f value) R) :
    Ends concerns E l (Action.require item piece >>= f) R :=
  ends_iff.mpr (.require hMissing fun value hPiece => ends_iff.mp (h value hPiece))

variable {cc : Context} {P : α → Prop} {F : EngineError → Prop}

theorem engine {operation : Outcome α} {f : α → Action L ρ β} (hAnswers : cc.Answers operation P F)
    (hConcerns : concerns cc)
    (hRefused : ∀ error, operation = .error (.error error) → F error → E (.engine error) l)
    (h : ∀ value, operation = .ok value → P value → Ends concerns E l (f value) R) :
    Ends concerns E l (Action.engine operation >>= f) R := by
  refine ends_iff.mpr (.engine (fun failure hFails => ?_) fun value hValue => ?_)
  · subst hFails
    cases failure with
    | error error => exact hRefused error rfl hAnswers
    | crash crash => exact ⟨cc, hConcerns, Context.ModulusAccounts.accounts hAnswers⟩
  · subst hValue
    exact ends_iff.mp (h value rfl hAnswers)

theorem compute {operation : Except Crash α} {f : α → Action L ρ β}
    (hComputes : cc.Computes operation P) (hConcerns : concerns cc)
    (h : ∀ value, operation = .ok value → Ends concerns E l (f value) R) :
    Ends concerns E l (Action.compute operation >>= f) R := by
  refine ends_iff.mpr (.compute (fun crash hCrash => ?_) fun value hValue => ?_)
  · subst hCrash
    exact ⟨cc, hConcerns, Context.ModulusAccounts.accounts hComputes⟩
  · exact ends_iff.mp (h value hValue)

theorem draw {operation : Draw ρ EngineError α} {f : α → Action L ρ β}
    (hAnswers : cc.DrawAnswers operation P F) (hConcerns : concerns cc)
    (hRefused : ∀ error, F error → E (.engine error) l)
    (h : ∀ value, P value → Ends concerns E l (f value) R) :
    Ends concerns E l (Action.draw operation >>= f) R := by
  refine ends_iff.mpr (.draw (fun source failure after hFails => ?_)
    fun source value after hValue => ?_)
  · have hDrawn := hAnswers source
    rw [hFails] at hDrawn
    cases failure with
    | error error => exact hRefused error hDrawn
    | crash crash => exact ⟨cc, hConcerns, Context.ModulusAccounts.accounts hDrawn⟩
  · have hDrawn := hAnswers source
    rw [hValue] at hDrawn
    exact ends_iff.mp (h value hDrawn)

/-- A key pair for a context that nobody has looked at. Where the slots are too many for a secret,
the ring dimension is to blame. -/
theorem keyGen [RandomSource ρ] {f : KeyPair → Action L ρ β} (hConcerns : concerns cc)
    (h : ∀ keys, cc.checkPublic keys.publicKey = .ok () → cc.Passes keys.privateKey.s →
      Ends concerns E l (f keys) R) : Ends concerns E l (Action.draw cc.keyGen >>= f) R := by
  by_cases hRoom : cc.HasRoom
  · exact .draw (Context.keyGen_answers (E := fun _ => False) hRoom) hConcerns
      (fun _ => False.elim) fun keys hKeys => h keys hKeys.1 hKeys.2
  · intro source
    rw [keyGen_bind_eq_crash hRoom]
    exact ⟨cc, hConcerns, Nat.not_lt.mp fun hFew => hRoom (Context.hasRoom_iff.mpr hFew)⟩

/-- A payload is decoded, or the action ends there. -/
theorem decode [Artifact α] {payload : Bytes} {f : α → Action L ρ β}
    (hMalformed : (Artifact.decode? payload : Option α) = none → ∀ error, E error l)
    (h : ∀ value, Artifact.decode? payload = some value → Ends concerns E l (f value) R) :
    Ends concerns E l (Action.decode payload >>= f) R :=
  ends_iff.mpr (.decode (fun hNone => hMalformed hNone _) fun value hPayload =>
    ends_iff.mp (h value hPayload))

end Ends

end Action

/-- Whether a state has a property, if one is to be entered. -/
def Next.Enters {S : Type} (P : S → Prop) : Next S → Prop
  | .send _ state => P state
  | .halt _ => True

theorem Next.Enters.mono {S : Type} {P Q : S → Prop} {next : Next S} (h : next.Enters P)
    (hWeaker : ∀ state, P state → Q state) : next.Enters Q := by
  cases next with
  | send sent state => exact hWeaker state h
  | halt sent => trivial

/-- Whether data have the context that they had before, or one that a message offers. -/
def Receives {L : Type} (context : L → Option Context) (message : Message) (before after : L) :
    Prop :=
  context after = context before ∨ ∃ cc, Offers message cc ∧ context after = some cc

/-- How the actions of a role treat its data. -/
structure Manner (S L : Type) where
  context : L → Option Context
  /-- What the data are like in a state. -/
  sound : S → L → Prop
  /-- What an action that succeeds decides and leaves behind. -/
  does : S → Message → L → Next S → L → Prop
  /-- What an action that fails leaves behind. -/
  fails : S → Message → L → PartyError → L → Prop

variable {S L ρ : Type} [DecidableEq S]

/-- Whether the actions of a table keep to a manner. -/
structure Manner.Governs (manner : Manner S L) (table : StepTable S L ρ) : Prop where
  steps : ∀ state step message l, table.get? state = some step → message.tag = step.trigger →
    manner.sound state l →
      Action.Ends (fun cc => manner.context l = some cc ∨ Offers message cc)
        (manner.fails state message l) l (step.action message) (manner.does state message l)
  /-- Success leads to sound data in the next state. -/
  onward : ∀ state message l sent next after,
    manner.does state message l (.send sent next) after → manner.sound next after
  /-- A context comes from a message that offers it. -/
  brings : ∀ state message l next after, manner.does state message l next after →
    Receives manner.context message l after
  /-- Failure leaves sound data in the same state, and the same context. -/
  back : ∀ state message l error after, manner.sound state l →
    manner.fails state message l error after →
      manner.sound state after ∧ manner.context after = manner.context l

/-- Whether none of several messages has made a machine crash. -/
def Calm (upshots : List Upshot) : Prop :=
  ∀ crash, .error (.crash crash) ∉ upshots

instance (upshots : List Upshot) : Decidable (Calm upshots) :=
  decidable_of_iff (.error (.crash .emptyRange) ∉ upshots ∧
      .error (.crash .zeroModulus) ∉ upshots ∧ .error (.crash .overflow) ∉ upshots ∧
      .error (.crash .capacity) ∉ upshots) <| by
    constructor
    · rintro ⟨hRange, hModulus, hOverflow, hCapacity⟩ crash
      cases crash <;> assumption
    · exact fun hCalm => ⟨hCalm _, hCalm _, hCalm _, hCalm _⟩

variable [ToString S]

/-- What comes of a message for a machine with a manner. -/
inductive Manner.Hears (manner : Manner S L) (machine : Machine S L ρ) (message : Message) :
    Upshot → Machine S L ρ → Prop
  /-- Nothing fires. At most the last message is sent once more. -/
  | rests {upshot : Upshot} (attempts : UInt32) (hStill : ¬machine.Fires message)
      (hOutcome : ∀ failure, upshot = .error failure →
        attempts = machine.attempts ∧ ∃ error, failure = .error error) :
      Hears manner machine message upshot { machine with attempts }
  | sends {sent : Message} {state : S} {data : L} (hFires : machine.Fires message)
      (hDoes : manner.does machine.state message machine.data (.send sent state) data) :
      Hears manner machine message (.ok (.send sent))
        { machine with data, state, outbound := some sent, attempts := 0 }
  | halts {sent : Message} {data : L} (hFires : machine.Fires message)
      (hDoes : manner.does machine.state message machine.data (.halt sent) data) :
      Hears manner machine message (.ok (.halt sent))
        { machine with data, outbound := none, attempts := 0, halted := true }
  | fails {error : PartyError} {data : L} (hFires : machine.Fires message)
      (hFails : manner.fails machine.state message machine.data error data) :
      Hears manner machine message (.error (.error error)) { machine with data }
  | crashes {crash : Crash} {data : L} {cc : Context} (hFires : machine.Fires message)
      (hConcerns : manner.context machine.data = some cc ∨ Offers message cc)
      (hAccounts : cc.Accounts crash) :
      Hears manner machine message (.error (.crash crash)) { machine with data }

namespace Manner.Governs

variable {manner : Manner S L} {table : StepTable S L ρ} {machine : Machine S L ρ}

/-- What comes of a message follows from the contract of the action that it fires. -/
theorem hears (h : manner.Governs table) (hTable : machine.table = table)
    (hSound : machine.halted = false → manner.sound machine.state machine.data) (source : ρ)
    (message : Message) :
    manner.Hears machine message (machine.onMessage source message).outcome
      (machine.onMessage source message).machine := by
  have hHears := machine.hears source message
  generalize machine.onMessage source message = delivery at hHears
  -- Where the action fires, its contract says what it has come to.
  have hEnds {step : Step S L ρ} (hLive : machine.halted = false)
      (hStep : machine.table.get? machine.state = some step) (hTag : message.tag = step.trigger) :=
    h.steps machine.state step message machine.data (hTable ▸ hStep) hTag (hSound hLive) source
  have hStay : ∀ {upshot : Upshot}, ¬machine.Fires message →
      (∀ failure, upshot = .error failure → ∃ error, failure = .error error) →
        manner.Hears machine message upshot machine := by
    intro upshot hStill hError
    exact .rests machine.attempts hStill fun failure hFailure => ⟨rfl, hError failure hFailure⟩
  cases hHears with
  | left hLeft => exact hStay (fun hFires => by simp [hFires.1] at hLeft) (by simp)
  | lost hLive hStep =>
      refine hStay ?_ (by simp)
      rintro ⟨-, step, hSome, -⟩
      rw [hStep] at hSome
      cases hSome
  | @fails step failure data after hLive hStep hTag hAction =>
      have hEnd := hEnds hLive hStep hTag
      rw [hAction] at hEnd
      have hFires : machine.Fires message := ⟨hLive, step, hStep, hTag⟩
      cases failure with
      | error error => exact .fails hFires hEnd
      | crash crash =>
          obtain ⟨cc, hConcerns, hAccounts⟩ := hEnd
          exact .crashes hFires hConcerns hAccounts
  | @sends step sent state data after hLive hStep hTag hAction =>
      have hEnd := hEnds hLive hStep hTag
      rw [hAction] at hEnd
      exact .sends ⟨hLive, step, hStep, hTag⟩ hEnd
  | @halts step sent data after hLive hStep hTag hAction =>
      have hEnd := hEnds hLive hStep hTag
      rw [hAction] at hEnd
      exact .halts ⟨hLive, step, hStep, hTag⟩ hEnd
  | resends hRetries => exact .rests _ hRetries.not_fires (by simp)
  | tires hRetries => exact hStay hRetries.not_fires (by simp)
  | passes hStill => exact hStay hStill (by simp)

omit [ToString S] in
/-- A context that is there after a message was there before, or the message has offered it. -/
theorem context_next (h : manner.Governs table)
    (hSound : machine.halted = false → manner.sound machine.state machine.data)
    {message : Message} {upshot : Upshot} {later : Machine S L ρ}
    (hHears : manner.Hears machine message upshot later)
    (hCalm : ∀ crash, upshot ≠ .error (.crash crash)) {cc : Context}
    (hContext : manner.context later.data = some cc) :
    manner.context machine.data = some cc ∨ Offers message cc := by
  have hBrings : ∀ {next : Next S} {data : L},
      manner.does machine.state message machine.data next data → manner.context data = some cc →
        manner.context machine.data = some cc ∨ Offers message cc := by
    intro next data hDoes hContext
    rcases h.brings _ _ _ _ _ hDoes with hSame | ⟨other, hOffers, hOther⟩
    · exact .inl (hSame ▸ hContext)
    · cases hOther.symm.trans hContext
      exact .inr hOffers
  cases hHears with
  | rests => exact .inl hContext
  | sends hFires hDoes => exact hBrings hDoes hContext
  | halts hFires hDoes => exact hBrings hDoes hContext
  | fails hFires hFails =>
      exact .inl ((h.back _ _ _ _ _ (hSound hFires.1) hFails).2 ▸ hContext)
  | crashes => exact absurd rfl (hCalm _)

omit [ToString S] in
/-- A message that makes no crash leaves sound data behind. -/
theorem sound_next (h : manner.Governs table)
    (hSound : machine.halted = false → manner.sound machine.state machine.data)
    {message : Message} {upshot : Upshot} {later : Machine S L ρ}
    (hHears : manner.Hears machine message upshot later)
    (hCalm : ∀ crash, upshot ≠ .error (.crash crash)) :
    later.halted = false → manner.sound later.state later.data := by
  intro hLive
  cases hHears with
  | rests => exact hSound hLive
  | sends hFires hDoes => exact h.onward _ _ _ _ _ _ hDoes
  | halts => cases hLive
  | fails hFires hFails => exact (h.back _ _ _ _ _ (hSound hLive) hFails).1
  | crashes => exact absurd rfl (hCalm _)

/-- As long as nothing crashes, the data are sound. -/
theorem sound_after (h : manner.Governs table) (hTable : machine.table = table)
    (hSound : machine.halted = false → manner.sound machine.state machine.data)
    {turns : List (ρ × Message)} (hCalm : Calm (machine.upshots turns)) :
    (machine.after turns).halted = false →
      manner.sound (machine.after turns).state (machine.after turns).data := by
  induction turns generalizing machine with
  | nil => exact hSound
  | cons turn rest ih =>
      obtain ⟨source, message⟩ := turn
      have hFirst := h.hears hTable hSound source message
      have hTable' := (machine.onMessage_fixed source message).1.trans hTable
      refine ih hTable' (h.sound_next hSound hFirst fun crash hCrash => ?_) fun crash hMem => ?_
      · exact hCalm crash (hCrash ▸ List.mem_cons_self)
      · exact hCalm crash (List.mem_cons_of_mem _ hMem)

/-- The first crash is the fault of a context that was there or that a message has offered. -/
theorem accounts (h : manner.Governs table) (hTable : machine.table = table)
    (hSound : machine.halted = false → manner.sound machine.state machine.data)
    {known : Context → Prop} (hKnown : ∀ cc, manner.context machine.data = some cc → known cc)
    {turns : List (ρ × Message)} {k : Nat} {crash : Crash}
    (hCrash : (machine.upshots turns)[k]? = some (.error (.crash crash)))
    (hCalm : Calm ((machine.upshots turns).take k)) :
    ∃ cc, (known cc ∨ ∃ turn ∈ turns.take (k + 1), Offers turn.2 cc) ∧ cc.Accounts crash := by
  -- By induction on the messages; what the first one offers is known from then on.
  induction turns generalizing machine known k with
  | nil => cases hCrash
  | cons turn rest ih =>
      obtain ⟨source, message⟩ := turn
      have hFirst := h.hears hTable hSound source message
      have hTable' := (machine.onMessage_fixed source message).1.trans hTable
      rw [Machine.upshots] at hCrash hCalm
      cases k with
      | zero =>
          rw [Option.some.inj hCrash] at hFirst
          generalize (machine.onMessage source message).machine = later at hFirst
          cases hFirst with
          | rests attempts hStill hOutcome =>
              obtain ⟨-, error, hError⟩ := hOutcome _ rfl
              cases hError
          | crashes hFires hConcerns hAccounts =>
              refine ⟨_, hConcerns.imp (hKnown _) fun hOffers => ?_, hAccounts⟩
              exact ⟨_, List.mem_cons_self, hOffers⟩
      | succ k =>
          have hNow (crash : Crash) :
              (machine.onMessage source message).outcome ≠ .error (.crash crash) :=
            fun hCrash => hCalm crash (hCrash ▸ List.mem_cons_self)
          have hLater : Calm
              (((machine.onMessage source message).machine.upshots rest).take k) :=
            fun crash hMem => hCalm crash (List.mem_cons_of_mem _ hMem)
          obtain ⟨cc, hFrom, hAccounts⟩ := ih hTable' (h.sound_next hSound hFirst hNow)
            (fun cc hContext => (h.context_next hSound hFirst hNow hContext).imp_left (hKnown cc))
            hCrash hLater
          refine ⟨cc, ?_, hAccounts⟩
          rcases hFrom with (hOld | hOffers) | ⟨turn, hMem, hOffers⟩
          · exact .inl hOld
          · exact .inr ⟨_, List.mem_cons_self, hOffers⟩
          · exact .inr ⟨turn, List.mem_cons_of_mem _ hMem, hOffers⟩

end Manner.Governs

/-- Among messages on which a machine crashes there is a first one. -/
theorem exists_first_crash {upshots : List Upshot} (h : ¬Calm upshots) :
    ∃ k crash, upshots[k]? = some (.error (.crash crash)) ∧ Calm (upshots.take k) := by
  induction upshots with
  | nil => exact absurd (fun crash hMem => List.not_mem_nil hMem) h
  | cons first rest ih =>
      by_cases hFirst : ∃ crash, first = .error (.crash crash)
      · obtain ⟨crash, rfl⟩ := hFirst
        exact ⟨0, crash, rfl, fun crash hMem => List.not_mem_nil hMem⟩
      · have hRest : ¬Calm rest := by
          intro hCalm
          apply h
          intro crash hMem
          rcases List.mem_cons.mp hMem with hSame | hLater
          · exact hFirst ⟨crash, hSame.symm⟩
          · exact hCalm crash hLater
        obtain ⟨k, crash, hCrash, hCalm⟩ := ih hRest
        refine ⟨k + 1, crash, hCrash, fun other hMem => ?_⟩
        rcases List.mem_cons.mp hMem with hSame | hLater
        · exact hFirst ⟨other, hSame.symm⟩
        · exact hCalm other hLater

/-- Whether a machine crashes on these messages only for fault of a context that one of them
offers. -/
structure Machine.Withstands (machine : Machine S L ρ) (turns : List (ρ × Message)) : Prop where
  /-- A first crash is accounted for by a context that has been offered by then. -/
  accounted : ∀ k crash, (machine.upshots turns)[k]? = some (.error (.crash crash)) →
    Calm ((machine.upshots turns).take k) →
      ∃ turn ∈ turns.take (k + 1), ∃ cc, Offers turn.2 cc ∧ cc.Accounts crash
  /-- Where every context that is offered has a modulus other than zero that is small enough for a
  signed word, and no more slots than a vector can have entries, nothing crashes. -/
  calm : (∀ turn ∈ turns, ∀ cc, Offers turn.2 cc →
      cc.plaintextModulus ≠ 0 ∧ cc.plaintextModulus.toNat < 2 ^ 63 ∧
        cc.ringDimension.toNat < 2 ^ 60) →
    Calm (machine.upshots turns)

/-- A machine that keeps to a manner, and has no context at first, withstands any messages. -/
theorem Manner.Governs.withstands {manner : Manner S L} {table : StepTable S L ρ}
    (h : manner.Governs table) {data : L} (hSound : manner.sound table.initial data)
    (hContext : manner.context data = none) (policy : RetryPolicy) (turns : List (ρ × Message)) :
    (Machine.start table data policy).Withstands turns := by
  have hAccounted : ∀ k crash,
      ((Machine.start table data policy).upshots turns)[k]? = some (.error (.crash crash)) →
      Calm (((Machine.start table data policy).upshots turns).take k) →
        ∃ turn ∈ turns.take (k + 1), ∃ cc, Offers turn.2 cc ∧ cc.Accounts crash := by
    intro k crash hCrash hCalm
    have hNone (cc : Context) (hSome : manner.context data = some cc) : False := by
      rw [hContext] at hSome
      cases hSome
    obtain ⟨cc, hFrom, hAccounts⟩ := h.accounts rfl (fun _ => hSound) hNone hCrash hCalm
    obtain ⟨turn, hMem, hOffers⟩ := hFrom.resolve_left id
    exact ⟨turn, hMem, cc, hOffers, hAccounts⟩
  refine ⟨hAccounted, fun hFine => ?_⟩
  by_contra hCrashes
  obtain ⟨k, crash, hCrash, hCalm⟩ := exists_first_crash hCrashes
  obtain ⟨turn, hMem, cc, hOffers, hAccounts⟩ := hAccounted k crash hCrash hCalm
  obtain ⟨hSome, hSmall, hFew⟩ := hFine turn (List.mem_of_mem_take hMem) cc hOffers
  cases crash with
  | emptyRange | zeroModulus => exact hSome hAccounts
  | overflow => exact absurd hAccounts (Nat.not_le.mpr hSmall)
  | capacity => exact absurd hAccounts (Nat.not_le.mpr hFew)

/-- What a machine that keeps to a manner has left of its data where it fails. -/
theorem Manner.Governs.rejects {manner : Manner S L} {table : StepTable S L ρ}
    (h : manner.Governs table) {data : L} (hSound : manner.sound table.initial data)
    (policy : RetryPolicy) {turns : List (ρ × Message)}
    (hCalm : Calm ((Machine.start table data policy).upshots turns)) {source : ρ}
    {message : Message} {error : PartyError}
    (hError : (((Machine.start table data policy).after turns).onMessage source message).outcome =
      .error (.error error)) :
    (((Machine.start table data policy).after turns).onMessage source message).machine =
        (Machine.start table data policy).after turns ∨
      ∃ after, manner.fails ((Machine.start table data policy).after turns).state message
          ((Machine.start table data policy).after turns).data error after ∧
        (((Machine.start table data policy).after turns).onMessage source message).machine =
          { (Machine.start table data policy).after turns with data := after } := by
  have hTable := ((Machine.start table data policy).after_fixed turns).1
  have hAfter := h.sound_after rfl (fun _ => hSound) hCalm
  have hHears := h.hears hTable hAfter source message
  rw [hError] at hHears
  generalize (((Machine.start table data policy).after turns).onMessage source message).machine =
    later at hHears
  cases hHears with
  | rests attempts hStill hOutcome =>
      obtain ⟨rfl, -⟩ := hOutcome _ rfl
      exact .inl rfl
  | fails hFires hFails => exact .inr ⟨_, hFails, rfl⟩

end CipherRelay.Party
