import CipherRelay.Proofs.Exchange.Runs
import CipherRelay.Proofs.Exchange.Seats
import CipherRelay.Proofs.Threshold.Partners
/-!
Agreement. Where the slots hold the inputs a threshold run cannot go wrong in any order of events:
nobody fails but for want of patience, or of memory for the keys, and both participants fuse what
each operation gives on the inputs.
-/
namespace CipherRelay.Threshold

open Exchange Party Scheme

variable {ρ : Type} [RandomSource ρ] {cc : Context} {d : Draws cc} {session : SessionId}

/-- What holds of a threshold run at any time. -/
structure Agrees (cc : Context) (seat seat' : Seat ρ) (alice : Machine AliceState Knowledge ρ)
    (bob : Machine BobState Knowledge ρ) : Prop where
  participant : seat.participant = .alice alice
  participant' : seat'.participant = .bob bob
  /-- Neither of them has given up but for want of patience, or of memory where none holds a vector
  of the context. -/
  patient : seat.IsPatient cc
  patient' : seat'.IsPatient cc
  /-- Neither of them has found a joint decryption wrong. -/
  unrefuted : alice.data.unrefuted
  unrefuted' : bob.data.unrefuted
  /-- When a share of the other one arrives, it fuses with the own one to the expected result, which
  is the same for both. Without room no result is expected, and no share arrives. -/
  fused : ∀ operation, ∃ plain,
    (cc.HasRoom → expected operation cc.ringDimension.toNat cc.plaintextModulus = .ok plain) ∧
      (∀ message rest, seat.inbox = message :: rest →
        message.tag = .send (.partialLead operation) → alice.state = .requestLead operation →
          cc.HasRoom ∧ ∃ lead main, Scheme.decode message.payload = .ok lead ∧ ∀ source : ρ,
            Alice.fuseLead operation lead (alice.data, source) =
              .ok (main, plain) (alice.data, source)) ∧
      ∀ message rest, seat'.inbox = message :: rest →
        message.tag = .send (.partialMain operation) → bob.state = .requestMain operation →
          cc.HasRoom ∧ ∃ main, Scheme.decode message.payload = .ok main ∧ ∀ source : ρ,
            Bob.fuseMain operation main (bob.data, source) = .ok plain (bob.data, source)
  /-- Who has halted has verified all operations, and passes. -/
  passed : alice.halted → alice.data.verified = Operation.all ∧ alice.data.passed
  passed' : bob.halted → bob.data.verified = Operation.all ∧ bob.data.passed

theorem Alice.unrefuted_knowsAt (d : Draws cc) (i : Nat) :
    ((alice cc : Conduct _ _ _ ρ).knowsAt d i).unrefuted := by
  cases hState : (alice cc : Conduct _ _ _ ρ).path[i]? with
  | none => simp only [Conduct.knowsAt, hState]; rfl
  | some s => simp only [Conduct.knowsAt, hState]; cases s <;> rfl

theorem Bob.unrefuted_knowsAt (d : Draws cc) (i : Nat) :
    ((bob cc : Conduct _ _ _ ρ).knowsAt d i).unrefuted := by
  cases hState : (bob cc : Conduct _ _ _ ρ).path[i]? with
  | none => simp only [Conduct.knowsAt, hState]; rfl
  | some s => simp only [Conduct.knowsAt, hState]; cases s <;> rfl

/-- The share that Alice is sent fuses with her own to what the operation should give, and the
context has room for it. -/
theorem Alice.fuses (h : cc.IsGenerated) {mark mark' : Mark} {relay : Relay} {seat : Seat ρ}
    (hShared : (alice cc : Conduct _ _ _ ρ).Shared (bob cc : Conduct _ _ _ ρ) (setting cc session) d
      mark mark' relay)
    (hSeat : (alice cc).Sits (setting cc session) d mark seat)
    {machine : Machine AliceState Knowledge ρ} (hMachine : seat.participant = .alice machine)
    {message : Message} {rest : List Message} (hInbox : seat.inbox = message :: rest)
    {operation : Operation} (hTag : message.tag = .send (.partialLead operation))
    (hState : machine.state = .requestLead operation) :
    cc.HasRoom ∧ ∃ lead main, Scheme.decode message.payload = .ok lead ∧ ∀ source : ρ,
      fuseLead operation lead (machine.data, source) =
        .ok (main, cc.centered (wanted cc operation)) (machine.data, source) := by
  obtain ⟨s, policy, attempts, hWaits, hMessage⟩ := hSeat.heard hInbox
  obtain rfl := Participant.alice.inj (hMachine.symm.trans hWaits)
  obtain rfl : s = .requestLead operation := hState
  rcases hMessage with ⟨rfl, hDone⟩ | hRetry
  · have hRoom : cc.HasRoom := (hShared.feasible_of_fetch hDone (List.mem_singleton.mpr rfl)).1
    exact ⟨hRoom, d.leadShare operation, d.mainShare operation, Artifact.decode_encode _,
      fun source => fuseLead_eq d source operation (h.isValid hRoom) _⟩
  · rw [hTag] at hRetry
    cases hRetry

/-- So does the share that Bob is sent. -/
theorem Bob.fuses (h : cc.IsGenerated) {mark mark' : Mark} {relay : Relay} {seat : Seat ρ}
    (hShared : (bob cc : Conduct _ _ _ ρ).Shared (alice cc : Conduct _ _ _ ρ) (setting cc session) d
      mark mark' relay)
    (hSeat : (bob cc).Sits (setting cc session) d mark seat)
    {machine : Machine BobState Knowledge ρ} (hMachine : seat.participant = .bob machine)
    {message : Message} {rest : List Message} (hInbox : seat.inbox = message :: rest)
    {operation : Operation} (hTag : message.tag = .send (.partialMain operation))
    (hState : machine.state = .requestMain operation) :
    cc.HasRoom ∧ ∃ main, Scheme.decode message.payload = .ok main ∧ ∀ source : ρ,
      fuseMain operation main (machine.data, source) =
        .ok (cc.centered (wanted cc operation)) (machine.data, source) := by
  obtain ⟨s, policy, attempts, hWaits, hMessage⟩ := hSeat.heard hInbox
  obtain rfl := Participant.bob.inj (hMachine.symm.trans hWaits)
  obtain rfl : s = .requestMain operation := hState
  rcases hMessage with ⟨rfl, hDone⟩ | hRetry
  · have hRoom : cc.HasRoom := (hShared.feasible_of_fetch hDone (List.mem_singleton.mpr rfl)).1
    exact ⟨hRoom, d.mainShare operation, Artifact.decode_encode _,
      fun source => fuseMain_eq d source operation (h.isValid hRoom) _⟩
  · rw [hTag] at hRetry
    cases hRetry

/-- However the events of a threshold run are interleaved, both participants find every operation as
expected. -/
theorem alice_and_bob_agree {params : ContextParams} (hContext : Context.generate params = .ok cc)
    (hLarge : 12 ≤ cc.ringDimension.toNat) {policy policy' : RetryPolicy}
    {start exchange : Exchange ρ}
    (hOpens : Opens cc session (.ofRole .alice policy) (.ofRole .bob policy') start)
    {events : List Event} (hRuns : Runs session start events exchange) :
    ∃ seat seat' alice bob, exchange.seats[0]? = some seat ∧ exchange.seats[1]? = some seat' ∧
      Agrees cc seat seat' alice bob := by
  have hGenerated := Context.isGenerated_of_generate hContext
  have hPartners := partners (ρ := ρ) session hGenerated
  have hExcuse : ¬(setting cc session).excuse := Nat.not_lt.mpr hLarge
  obtain ⟨d, mark, mark', -, -, hHolds, -⟩ :=
    hPartners.runs (hPartners.holds_of_opens default hOpens) hRuns
  obtain ⟨seat, hSeat, hSits⟩ := hHolds.seat
  obtain ⟨seat', hSeat', hSits'⟩ := hHolds.seat'
  obtain ⟨alice, hAlice, hData, hHalted, hPatient⟩ := hSits.knows hExcuse
  obtain ⟨bob, hBob, hData', hHalted', hPatient'⟩ := hSits'.knows hExcuse
  refine ⟨seat, seat', alice, bob, hSeat, hSeat', ?_⟩
  exact
    { participant := hAlice
      participant' := hBob
      patient := hPatient
      patient' := hPatient'
      unrefuted := by
        rw [hData]
        exact Alice.unrefuted_knowsAt d _
      unrefuted' := by
        rw [hData']
        exact Bob.unrefuted_knowsAt d _
      fused := by
        intro operation
        refine ⟨_, fun hRoom => expected_eq_ok (hGenerated.isValid hRoom) operation, ?_, ?_⟩
        · intro message rest hInbox hTag hState
          exact Alice.fuses hGenerated hHolds.shared hSits hAlice hInbox hTag hState
        · intro message rest hInbox hTag hState
          exact Bob.fuses hGenerated hHolds.shared.symm hSits' hBob hInbox hTag hState
      passed := by
        intro hStops
        rw [hHalted hStops, Conduct.knowsAt_length] at hData
        rw [hData]
        exact ⟨rfl, rfl⟩
      passed' := by
        intro hStops
        rw [hHalted' hStops, Conduct.knowsAt_length] at hData'
        rw [hData']
        exact ⟨rfl, rfl⟩ }

def sample : Exchange Congruential :=
  opening ⟨16, 2⟩ .default (.ofRole .alice {}) (.ofRole .bob {}) ⟨7⟩

/-- An order of events in which the sample comes to its end: both take turns, and Alice is left
alone in the end. -/
def schedule : List Event :=
  (List.replicate 22 (turns 0 1 ++ turns 1 1)).flatten ++ turns 0 2

theorem sample_halts : (sample.follow? schedule).any halted := by
  decide +kernel

theorem alice_and_bob_agree_sample :
    ∃ exchange, Runs .default sample schedule exchange ∧ exchange.halted ∧
      ∃ seat seat' alice bob, exchange.seats[0]? = some seat ∧
        exchange.seats[1]? = some seat' ∧ Agrees ⟨16, 2⟩ seat seat' alice bob := by
  obtain ⟨exchange, hRuns, hHalted⟩ := exists_runs
    (show ∀ event ∈ schedule, event.Harmless .default by decide) sample_halts
  exact ⟨exchange, hRuns, hHalted, alice_and_bob_agree
    (show Context.generate ⟨16, 2⟩ = .ok ⟨16, 2⟩ by decide) (by decide) (opens_opening ..) hRuns⟩

end CipherRelay.Threshold
