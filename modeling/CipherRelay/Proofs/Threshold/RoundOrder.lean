import CipherRelay.Proofs.Exchange.Deposits
import CipherRelay.Proofs.Threshold.Agreement
/-!
The order of the rounds. No counter and no barrier keeps the rounds of a threshold run apart: each
party asks for what it needs before it hands over what it makes of that. So in whatever order the
events happen, everything that an artifact is made from has been stored before it.
-/
namespace CipherRelay.Threshold

open Exchange Party Scheme

/-- The artifacts that have to be stored before another one: what a party makes it from, and what
the other party is to have stored by then. -/
def prerequisites : ArtifactKind → List ArtifactKind
  | .rnd2SharedKey | .rnd2EvalMultAB | .rnd2EvalMultBAB | .rnd2EvalSumKeysJoin =>
      [.rnd1PubKey, .rnd1EvalMultKey, .rnd1EvalSumKeys]
  | .rnd3EvalMultFinal => [.rnd2SharedKey, .rnd2EvalMultAB, .rnd2EvalMultBAB]
  | .ct1 => [.rnd3EvalMultFinal, .rnd2EvalSumKeysJoin]
  | .ct2 => [.ct1]
  | .ct3 => [.ct2]
  | .partialLead .add => [.ct3]
  | .partialLead .mult => [.partialMain .add]
  | .partialLead .sum => [.partialMain .mult]
  | .partialMain operation => [.partialLead operation]
  | _ => []

/-- Alice stores nothing before what it needs is there for her. -/
theorem orderly_alice : Orderly prerequisites aliceCourse := by
  decide

theorem orderly_bob : Orderly prerequisites bobCourse := by
  decide

variable {ρ : Type} [RandomSource ρ] {cc : Context} {session : SessionId}
  {start exchange : Exchange ρ} {events : List Event}

/-- What holds of the order of the rounds at any time of a threshold run. -/
structure InRounds (session : SessionId) (start : Exchange ρ) (events : List Event)
    (exchange : Exchange ρ) : Prop where
  /-- Each artifact is stored once at most. -/
  once : (start.deposits session events).Nodup
  /-- When an artifact is stored, its prerequisites have been. -/
  inOrder : InOrder prerequisites (start.deposits session events)
  /-- Until an artifact is stored, everybody who asks for it hears that it is not there. -/
  nacked : ∀ kind, kind ≠ .cryptoContext → kind ∉ start.deposits session events →
    ∀ message : Message, message.tag = .request kind → ∀ source : ρ,
      (exchange.relay.dispatch source session message).response =
        .handled (some (.bare (.nack kind)))

/-- Neither party hands over a private key, so the relay derives no key in a threshold run. -/
theorem privateKey_not_mem (mark mark' : Mark) :
    .store .privateKey ∉ given aliceCourse bobCourse mark mark' := by
  intro hMem
  rcases List.mem_append.mp hMem with hAlice | hBob
  · exact absurd (List.mem_of_mem_take hAlice) (by decide)
  · exact absurd (List.mem_of_mem_take hBob) (by decide)

/-- However the events of a threshold run are interleaved, the artifacts are stored round by
round. -/
theorem stored_in_rounds {params : ContextParams} (hContext : Context.generate params = .ok cc)
    {policy policy' : RetryPolicy}
    (hOpens : Opens cc session (.ofRole .alice policy) (.ofRole .bob policy') start)
    (hRuns : Runs session start events exchange) : InRounds session start events exchange := by
  have hPartners := partners (ρ := ρ) session (Context.isGenerated_of_generate hContext)
  obtain ⟨d, mark, mark', hHolds, hRecorded⟩ := hPartners.runs_recorded orderly_alice orderly_bob
    (hPartners.holds_of_opens default hOpens) hPartners.store_not_mem hRuns
  constructor
  case once => exact hRecorded.nodup
  case inOrder => exact hRecorded.inOrder
  case nacked =>
    intro kind hKind hNone message hTag source
    by_cases hStored : kind.isStored
    · have hSource : kind ∈ sources kind := by simp [sources_of_isStored hStored]
      exact hHolds.shared.nacks hKind hSource ((hRecorded.mem_iff kind).not.mp hNone) hTag source
    · obtain rfl : kind = .reEncryptionKey := by
        cases kind with
        | reEncryptionKey => rfl
        | cryptoContext => exact absurd rfl hKind
        | _ => exact absurd rfl hStored
      exact hHolds.shared.nacks hKind List.mem_cons_self (privateKey_not_mem mark mark') hTag source

theorem stored_in_rounds_sample :
    ∃ exchange, Runs .default sample schedule exchange ∧ exchange.halted ∧
      InRounds .default sample schedule exchange := by
  obtain ⟨exchange, hRuns, hHalted⟩ := exists_runs
    (show ∀ event ∈ schedule, event.Harmless .default by decide) sample_halts
  exact ⟨exchange, hRuns, hHalted, stored_in_rounds
    (show Context.generate ⟨16, 2⟩ = .ok ⟨16, 2⟩ by decide) (opens_opening ..) hRuns⟩

end CipherRelay.Threshold
