import CipherRelay.Proofs.Handoff.Conduct
import CipherRelay.Proofs.Party.Contracts
import CipherRelay.Proofs.Party.History
import Mathlib.Data.List.GetD
/-!
Verification. A producer that has encrypted its vector confirms a returned list just where the list
is the vector, with zeros behind it up to the number of slots, and each entry of it is written
either as a residue or one modulus lower. It confirms nothing if its own vector was not one of
residues, because then the slots do not hold it. A comparison leaves everything as it was but the
flag, which tells whether all lists have been confirmed.
-/
namespace CipherRelay.Handoff

open Party Scheme

/-- Whether a returned list shows that a vector has come through. -/
structure Confirms (cc : Context) (vector returned : List Int64) : Prop where
  range : ∀ v ∈ vector, 0 ≤ v.toInt ∧ v.toInt < cc.plaintextModulus.toNat
  length : returned.length = cc.ringDimension.toNat
  entries : ∀ i < cc.ringDimension.toNat,
    (returned.getD i 0).toInt = ((cc.padded vector).getD i 0).toInt ∨
      (returned.getD i 0).toInt =
        ((cc.padded vector).getD i 0).toInt - cc.plaintextModulus.toNat

instance (cc : Context) (vector returned : List Int64) :
    Decidable (Confirms cc vector returned) :=
  -- The values of the vector are gone through, and not all words.
  letI : Decidable (∀ v ∈ vector, 0 ≤ v.toInt ∧ v.toInt < cc.plaintextModulus.toNat) :=
    List.decidableBAll _ vector
  decidable_of_iff
    ((∀ v ∈ vector, 0 ≤ v.toInt ∧ v.toInt < cc.plaintextModulus.toNat) ∧
      returned.length = cc.ringDimension.toNat ∧
      ∀ i < cc.ringDimension.toNat,
        (returned.getD i 0).toInt = ((cc.padded vector).getD i 0).toInt ∨
          (returned.getD i 0).toInt =
            ((cc.padded vector).getD i 0).toInt - cc.plaintextModulus.toNat)
    ⟨fun h => ⟨h.1, h.2.1, h.2.2⟩, fun h => ⟨h.range, h.length, h.entries⟩⟩

/-- The two lists that a producer compares with its vector are the vector just where the returned
one shows that it has come through. -/
theorem confirms_iff {cc : Context} (h : cc.IsValid) {vector returned : List Int64}
    (hLength : vector.length ≤ cc.ringDimension.toNat) :
    Confirms cc vector returned ↔
      cc.canonical (cc.slotsOf vector) = cc.padded vector ∧
        returned.map cc.raised = cc.padded vector := by
  rw [h.canonical_slotsOf_iff hLength]
  have hSlots := Context.length_padded hLength
  have hEntry (hRange : ∀ v ∈ vector, 0 ≤ v.toInt ∧ v.toInt < cc.plaintextModulus.toNat) {i : Nat}
      (hReturned : i < returned.length) (hInside : i < (cc.padded vector).length) :
      cc.raised returned[i] = (cc.padded vector)[i] ↔
        (returned.getD i 0).toInt = ((cc.padded vector).getD i 0).toInt ∨
          (returned.getD i 0).toInt =
            ((cc.padded vector).getD i 0).toInt - cc.plaintextModulus.toNat := by
    obtain ⟨hLow, hHigh⟩ := h.padded_range hRange _ (List.getElem_mem hInside)
    rw [h.raised_eq_iff hLow hHigh, List.getD_eq_getElem _ _ hReturned,
      List.getD_eq_getElem _ _ hInside]
  constructor
  · intro hConfirms
    have hSame : (returned.map cc.raised).length = (cc.padded vector).length := by
      rw [List.length_map, hConfirms.length, hSlots]
    refine ⟨hConfirms.range, List.ext_getElem hSame fun i hLeft hRight => ?_⟩
    rw [List.getElem_map, hEntry hConfirms.range (by simpa using hLeft) hRight]
    exact hConfirms.entries i (hSlots ▸ hRight)
  · rintro ⟨hRange, hSame⟩
    have hReturned : returned.length = cc.ringDimension.toNat := by
      rw [← hSlots, ← hSame, List.length_map]
    refine ⟨hRange, hReturned, fun i hInside => ?_⟩
    have hMapped : i < (returned.map cc.raised).length := by
      rw [List.length_map]
      omega
    rw [← hEntry hRange (by omega) (by omega), ← List.getElem_map cc.raised (h := hMapped)]
    exact List.getElem_of_eq hSame hMapped

namespace Producer

variable {ρ : Type}

/-- Whatever a producer knows, a comparison leaves it as it was but for the flag. -/
theorem verify_comes (returned : List Int64) (producer : Producer) :
    Action.Comes producer (verify returned : Action Producer ρ Bool)
      (fun same after => after = { producer with passed := producer.passed && same })
      (fun _ after => after = producer) := by
  refine .data (.require (fun _ => rfl) fun cc _ => .require (fun _ => rfl) fun keys _ =>
    .require (fun _ => rfl) fun ct _ => .require (fun _ => rfl) fun vector _ =>
    .engine (fun _ _ => rfl) fun plain _ => .compute (fun _ _ => rfl) fun decrypted _ =>
    .compute (fun _ _ => rfl) fun wrapped _ => .compute (fun _ _ => rfl) fun _ _ => ?_)
  dsimp only
  split
  · exact .pure (by rw [Bool.and_true])
  · exact .change (.pure (by rw [Bool.and_false]))

variable [RandomSource ρ]

/-- Whether a producer has encrypted a vector in a context, whatever has been drawn for its keys and
for the encryption. -/
structure HasEncrypted (ρ : Type) [RandomSource ρ] (cc : Context) (vector : List Int64)
    (producer : Producer) : Prop where
  context : producer.context = some cc
  values : producer.vector = some vector
  sealed : ∃ keys ct, producer.keys = some keys ∧ producer.ct = some ct ∧
    (∃ source after : ρ, cc.keyGen source = .ok keys after) ∧
    ∃ source after : ρ, cc.encrypt keys.publicKey vector source = .ok ct after

namespace HasEncrypted

variable {cc : Context} {vector : List Int64} {producer : Producer}

/-- The flag does not tell what has been encrypted. -/
theorem with_passed (h : producer.HasEncrypted ρ cc vector) (passed : Bool) :
    HasEncrypted ρ cc vector { producer with passed } :=
  ⟨h.context, h.values, h.sealed⟩

theorem hasRoom (h : producer.HasEncrypted ρ cc vector) : cc.HasRoom := by
  obtain ⟨keys, ct, -, -, ⟨source, after, hKeyGen⟩, -⟩ := h.sealed
  exact Context.hasRoom_of_keyGen hKeyGen

/-- What has been encrypted fits the slots, and is what the ciphertext opens to. -/
theorem opens (h : producer.HasEncrypted ρ cc vector) (hValid : cc.IsValid) :
    vector.length ≤ cc.ringDimension.toNat ∧ ∃ keys s parts, producer.keys = some keys ∧
      keys.privateKey = cc.privateKey s ∧ producer.ct = some (cc.ciphertext parts) ∧
      Context.opened s parts = cc.slotsOf vector := by
  obtain ⟨keys, ct, hKeys, hCt, ⟨source, after, hKeyGen⟩, source', after', hEncrypt⟩ := h.sealed
  obtain ⟨s, u, afterKeys, hDrawn⟩ := hValid.keyGen_eq_ok source
  cases hKeyGen.symm.trans hDrawn
  have hLength : vector.length ≤ cc.ringDimension.toNat := by
    by_contra hLong
    rw [hValid.encrypt_eq_error (Context.keyParts s u) (Nat.not_le.mp hLong) source'] at hEncrypt
    cases hEncrypt
  obtain ⟨r, afterMask, hSealed⟩ :=
    hValid.encrypt_eq_ok (Context.keyParts s u) hLength source'
  cases hEncrypt.symm.trans hSealed
  exact ⟨hLength, _, s, _, hKeys, rfl, hCt,
    Context.opened_sealedParts (Context.opened_keyParts s u) _ r⟩

/-- A comparison confirms just the lists that show that the vector has come through. -/
theorem verify_eq (h : producer.HasEncrypted ρ cc vector) (hValid : cc.IsValid)
    (returned : List Int64) (source : ρ) :
    verify returned (producer, source) = .ok (decide (Confirms cc vector returned))
      ({ producer with passed := producer.passed && decide (Confirms cc vector returned) },
        source) := by
  obtain ⟨hLength, keys, s, parts, hKeys, hSecret, hCt, hOpened⟩ := h.opens hValid
  refine verify_eq_ok hValid h.context hKeys hSecret hCt h.values (hValid.wrap_eq_ok returned)
    ?_ source
  rw [hOpened, decide_eq_true_iff, confirms_iff hValid hLength]

/-- In a context that is not valid a comparison may fail, but it does nothing else either. -/
theorem verify_comes (h : producer.HasEncrypted ρ cc vector) (returned : List Int64) :
    Action.Comes producer (verify returned : Action Producer ρ Bool)
      (fun same after => after = { producer with passed := producer.passed && same } ∧
        (cc.IsValid → same = decide (Confirms cc vector returned)))
      (fun _ after => after = producer) := by
  intro source
  have hFrame := Producer.verify_comes returned producer source
  have hExact := fun hValid => h.verify_eq hValid returned source
  revert hFrame hExact
  rcases verify returned (producer, source) with ⟨same, after⟩ | ⟨failure, after⟩
  · exact fun hAfter hExact => ⟨hAfter, fun hValid => (EStateM.Result.ok.inj (hExact hValid)).1⟩
  · exact fun hAfter _ => hAfter

/-- Several comparisons, one after another. -/
theorem mapM_verify (h : producer.HasEncrypted ρ cc vector) (hValid : cc.IsValid)
    (calls : List (List Int64)) (source : ρ) :
    (calls.mapM verify : Action Producer ρ (List Bool)) (producer, source) =
      .ok (calls.map fun returned => decide (Confirms cc vector returned))
        ({ producer with
            passed := producer.passed && calls.all fun returned =>
              decide (Confirms cc vector returned) }, source) := by
  induction calls generalizing producer with
  | nil =>
      rw [List.mapM_nil, List.all_nil, Bool.and_true]
      rfl
  | cons returned rest ih =>
      rw [List.mapM_cons, Draw.bind_eq (h.verify_eq hValid returned source),
        Draw.bind_eq (ih (h.with_passed _)), List.all_cons, ← Bool.and_assoc]
      rfl

end HasEncrypted

/-- The list that a producer has compared, if it takes leave on a message. -/
def compared (message : Message) : Upshot → List (List Int64)
  | .ok (.halt _) => (Artifact.decode? message.payload).toList
  | _ => []

/-- All lists that some messages make a producer compare. -/
def comparisons (machine : Machine ProducerState Producer ρ) :
    List (ρ × Message) → List (List Int64)
  | [] => []
  | (source, message) :: rest =>
      let delivery := machine.onMessage source message
      compared message delivery.outcome ++ comparisons delivery.machine rest

/-- What a producer knows in a state after it has compared some lists, whatever it has heard. -/
inductive Stage (ρ : Type) [RandomSource ρ] :
    ProducerState → List (List Int64) → Producer → Prop
  | fresh {s : ProducerState} {vector : Option (List Int64)}
      (hState : s = .getMessage ∨ s = .requestCC) : Stage ρ s [] { vector }
  | keyed {cc : Context} {keys : KeyPair} {vector : Option (List Int64)}
      (hKeys : ∃ source after : ρ, cc.keyGen source = .ok keys after) :
      Stage ρ .genKeys [] { context := some cc, keys := some keys, vector }
  | encrypted {s : ProducerState} {heard : List (List Int64)} {producer : Producer} {cc : Context}
      {vector : List Int64} (hState : s = .genCT ∨ s = .requestVecInt)
      (hEncrypted : producer.HasEncrypted ρ cc vector)
      (hPassed : cc.IsValid → producer.passed = heard.all fun returned =>
        decide (Confirms cc vector returned)) : Stage ρ s heard producer

/-- What an action is to lead to. -/
def Leads (ρ : Type) [RandomSource ρ] (s : ProducerState) (heard : List (List Int64))
    (message : Message) : Next ProducerState → Producer → Prop
  | .send _ next, after => Stage ρ next heard after
  | .halt _, after => Stage ρ s (heard ++ (Artifact.decode? message.payload).toList) after

variable {s : ProducerState} {heard : List (List Int64)} {producer : Producer}

/-- The vector leaves the data, also where none can be drawn. -/
theorem takeVector_comes (cc : Context) (producer : Producer) :
    Action.Comes producer (takeVector cc : Action Producer ρ (List Int64))
      (fun _ after => after = { producer with vector := none })
      (fun _ after => after = { producer with vector := none }) := by
  refine .data (.change ?_)
  split
  · exact .pure rfl
  · exact .draw (fun _ _ _ _ => rfl) fun _ _ _ _ => .pure rfl

/-- Each step leads a producer from one stage to another, or leaves it in its own. -/
theorem Stage.comes (h : Stage ρ s heard producer) (message : Message) :
    Action.Comes producer (action s message : Action Producer ρ (Next ProducerState))
      (Leads ρ s heard message) (fun _ after => Stage ρ s heard after) := by
  have hStage := h
  cases s with
  | getMessage =>
      cases h with
      | fresh => exact .pure (.fresh (.inr rfl))
      | encrypted hState => simp at hState
  | requestCC =>
      cases h with
      | fresh =>
          exact .decode (fun _ => hStage) fun cc _ => .draw (fun _ _ _ _ => hStage)
            fun source keys after hKeys => .change (.pure (.keyed ⟨source, after, hKeys⟩))
      | encrypted hState => simp at hState
  | genKeys =>
      cases h with
      | fresh hState => simp at hState
      | encrypted hState => simp at hState
      | @keyed cc keys vector hKeys =>
          refine .data (.require (fun _ => hStage) fun cc' hContext =>
            .require (fun _ => hStage) fun keys' hPair => ?_)
          cases hContext
          cases hPair
          split
          · exact .bind (.fail hStage)
          refine .bind ((takeVector_comes cc _).mono ?_ fun _ _ hLost => hLost ▸ .keyed hKeys)
          rintro vector _ rfl
          exact .draw (fun _ _ _ _ => .keyed hKeys) fun source ct after hCt =>
            .change (.pure (.encrypted (.inl rfl)
              ⟨rfl, rfl, keys, ct, rfl, rfl, hKeys, source, after, hCt⟩ fun _ => rfl))
  | genCT =>
      cases h with
      | fresh hState => simp at hState
      | encrypted _ hEncrypted hPassed => exact .pure (.encrypted (.inr rfl) hEncrypted hPassed)
  | requestVecInt =>
      cases h with
      | fresh hState => simp at hState
      | encrypted _ hEncrypted hPassed =>
          refine .decode (fun _ => hStage) fun returned hReturned =>
            .bind ((hEncrypted.verify_comes returned).mono ?_ fun _ _ hSame => hSame ▸ hStage)
          rintro same _ ⟨rfl, hSame⟩
          refine .pure ?_
          change Stage ρ .requestVecInt (heard ++ (Artifact.decode? message.payload).toList) _
          rw [hReturned, Option.toList_some]
          refine .encrypted (.inr rfl) (hEncrypted.with_passed _) fun hValid => ?_
          rw [List.all_append, List.all_cons, List.all_nil, Bool.and_true, ← hPassed hValid,
            ← hSame hValid]

variable {machine : Machine ProducerState Producer ρ}

/-- One message. -/
theorem Stage.hear (h : Stage ρ machine.state heard machine.data)
    (hTable : machine.table = table) (source : ρ) (message : Message) :
    let delivery := machine.onMessage source message
    Stage ρ delivery.machine.state (heard ++ compared message delivery.outcome)
      delivery.machine.data := by
  have hComes := h.comes message source
  have hHears := machine.hears source message
  generalize machine.onMessage source message = delivery at hHears
  have hAction {step : Step ProducerState Producer ρ}
      (hStep : machine.table.get? machine.state = some step) :
      step.action = action machine.state := by
    rw [hTable, get?_table] at hStep
    cases hStep
    rfl
  cases hHears with
  | left | lost | passes | resends | tires => simpa [compared] using h
  | fails hLive hStep hTag hFails =>
      rw [hAction hStep] at hFails
      rw [hFails] at hComes
      simpa [compared] using hComes
  | sends hLive hStep hTag hSends =>
      rw [hAction hStep] at hSends
      rw [hSends] at hComes
      simpa [compared, Leads] using hComes
  | halts hLive hStep hTag hHalts =>
      rw [hAction hStep] at hHalts
      rw [hHalts] at hComes
      exact hComes

/-- Any messages. -/
theorem Stage.run (h : Stage ρ machine.state heard machine.data) (hTable : machine.table = table)
    (turns : List (ρ × Message)) :
    Stage ρ (machine.after turns).state (heard ++ comparisons machine turns)
      (machine.after turns).data := by
  induction turns generalizing machine heard with
  | nil => rwa [comparisons, List.append_nil]
  | cons turn rest ih =>
      have hFirst := h.hear hTable turn.1 turn.2
      have hRest := ih hFirst ((machine.onMessage_fixed turn.1 turn.2).1.trans hTable)
      rwa [List.append_assoc] at hRest

/-- Any messages from the start. -/
theorem stage_after_start (own : Option (List Int64)) (policy : RetryPolicy)
    (turns : List (ρ × Message)) :
    let start := Machine.start table { vector := own } policy
    Stage ρ (start.after turns).state (comparisons start turns) (start.after turns).data := by
  intro start
  have hStart : Stage ρ start.state [] start.data := .fresh (.inl rfl)
  simpa using hStart.run rfl turns

/-- A producer that has a ciphertext has encrypted its vector, and its flag tells whether it has
confirmed all lists that it has compared. -/
theorem Stage.hasEncrypted {cc : Context} (h : Stage ρ s heard producer)
    (hContext : producer.context = some cc) (hCt : producer.ct ≠ none) :
    ∃ vector, producer.HasEncrypted ρ cc vector ∧ (cc.IsValid →
      producer.passed = heard.all fun returned => decide (Confirms cc vector returned)) := by
  cases h with
  | fresh => exact absurd rfl hCt
  | keyed => exact absurd rfl hCt
  | encrypted _ hEncrypted hPassed =>
      cases hContext.symm.trans hEncrypted.context
      exact ⟨_, hEncrypted, hPassed⟩

section Opening

variable {cc : Context} {own : Option (List Int64)}

/-- The messages on which a producer encrypts its vector: the server's acceptance, a context, and
the acknowledgement of the private key. Each comes with a source. -/
def opening (cc : Context) (first second third : ρ) : List (ρ × Message) :=
  [(first, .bare .serverAccept), (second, .send .cryptoContext (Artifact.encode cc)),
    (third, .bare (.ack .privateKey))]

/-- After the opening a producer knows what its draws have given. -/
theorem after_opening (h : cc.IsValid) (hFits : Encryptable cc own) (policy : RetryPolicy)
    (first second third : ρ) : ∃ d : Draws cc own,
      ((Machine.start table { vector := own } policy).after (opening cc first second third)).data =
        knows d .genCT := by
  obtain ⟨secret, mask, afterKeys, hKeys⟩ := onContext_eq h (default : Draws cc own) second
  obtain ⟨-, vector, encrypts, cover, after, hEncrypt⟩ :=
    (onPrivateKeyStored_eq h { (default : Draws cc own) with secret, mask }
      (.bare (.ack .privateKey)) third).resolve_right fun hUnfit => hUnfit.1 hFits
  refine ⟨{ (default : Draws cc own) with secret, mask, vector, encrypts, cover }, ?_⟩
  rw [opening, Machine.after_cons_of_send rfl (get?_table .getMessage) rfl rfl,
    Machine.after_cons_of_send rfl (get?_table .requestCC) rfl hKeys,
    Machine.after_cons_of_send rfl (get?_table .genKeys) rfl hEncrypt]
  rfl

end Opening

/-- What a producer's comparisons are worth in a context. -/
structure Decides (ρ : Type) [RandomSource ρ] (cc : Context) : Prop where
  /-- Where there is room for it, every vector that fits the slots can be encrypted, and so can a
  drawn one. -/
  encrypts : cc.HasRoom → ∀ own : Option (List Int64),
    (∀ vector, own = some vector → vector.length ≤ cc.ringDimension.toNat) →
      ∀ (policy : RetryPolicy) (first second third : ρ),
        let after := (Machine.start table { vector := own } policy).after
          (opening cc first second third)
        after.data.passed = true ∧
          ∃ vector, Encrypts cc own vector ∧ after.data.HasEncrypted ρ cc vector
  /-- Nothing is encrypted without room. -/
  room : ∀ producer vector, HasEncrypted ρ cc vector producer → cc.HasRoom
  /-- A comparison is exact and changes nothing but the flag. -/
  answers : ∀ producer vector, HasEncrypted ρ cc vector producer →
    ∀ (returned : List Int64) (source : ρ), ∃ same passed,
      verify returned (producer, source) = .ok same ({ producer with passed }, source) ∧
        (same = true ↔ Confirms cc vector returned)
  /-- After any comparisons the flag is set if it was set before and all of them have succeeded. -/
  calls : ∀ producer vector, HasEncrypted ρ cc vector producer →
    ∀ (calls : List (List Int64)) (source : ρ), ∃ answers passed,
      (calls.mapM verify : Action Producer ρ (List Bool)) (producer, source) =
          .ok answers ({ producer with passed }, source) ∧
        answers = calls.map (fun returned => decide (Confirms cc vector returned)) ∧
        (passed = true ↔ producer.passed = true ∧ ∀ answer ∈ answers, answer = true)
  /-- Whatever a producer has heard, its flag is set if the lists that it has compared since its
  start have all been confirmed. -/
  flag : ∀ (own : Option (List Int64)) (policy : RetryPolicy) (turns : List (ρ × Message)),
    let start := Machine.start table { vector := own } policy
    (start.after turns).data.context = some cc → (start.after turns).data.ct ≠ none →
      ∃ vector, vector.length ≤ cc.ringDimension.toNat ∧
        (start.after turns).data.HasEncrypted ρ cc vector ∧
        ((start.after turns).data.passed = true ↔
          ∀ returned ∈ comparisons start turns, Confirms cc vector returned)

/-- In every generated context whose modulus exceeds the packing bound a producer's comparisons are
exact, whatever is drawn. -/
theorem decides_of_generate {params : ContextParams} {cc : Context}
    (hContext : Context.generate params = .ok cc) (hModulus : packingBound < cc.plaintextModulus)
    (ρ : Type) [RandomSource ρ] : Decides ρ cc := by
  have h := Context.isGenerated_of_generate hContext
  constructor
  case encrypts =>
    intro hRoom own hLength policy first second third after
    obtain ⟨d, hKnows⟩ :=
      after_opening (h.isValid hRoom) ⟨hModulus, hLength⟩ policy first second third
    have hKnown : after.data = knows d .genCT := hKnows
    have hStage : Stage ρ after.state _ after.data := stage_after_start own policy _
    rw [hKnown] at hStage ⊢
    obtain ⟨vector, hEncrypted, -⟩ := hStage.hasEncrypted rfl (Option.some_ne_none _)
    cases hEncrypted.values
    exact ⟨rfl, _, d.encrypts, hEncrypted⟩
  case room => exact fun producer vector hEncrypted => hEncrypted.hasRoom
  case answers =>
    intro producer vector hEncrypted returned source
    have hVerify := hEncrypted.verify_eq (h.isValid hEncrypted.hasRoom) returned source
    exact ⟨_, _, hVerify, decide_eq_true_iff⟩
  case calls =>
    intro producer vector hEncrypted calls source
    refine ⟨_, _, hEncrypted.mapM_verify (h.isValid hEncrypted.hasRoom) calls source, rfl, ?_⟩
    rw [Bool.and_eq_true, List.all_eq_true, List.forall_mem_map]
  case flag =>
    intro own policy turns start hKnown hCt
    obtain ⟨vector, hEncrypted, hPassed⟩ :=
      (stage_after_start own policy turns).hasEncrypted hKnown hCt
    have hValid := h.isValid hEncrypted.hasRoom
    refine ⟨vector, (hEncrypted.opens hValid).1, hEncrypted, ?_⟩
    rw [hPassed hValid, List.all_eq_true]
    exact forall₂_congr fun _ _ => decide_eq_true_iff

/-- A vector whose last value comes back one modulus lower is confirmed, and one with another value
in its place is not; a list that is confirmed later does not set the flag again. -/
theorem decides_of_generate_sample :
    let cc : Context := ⟨4, 65537⟩
    let machine := (Machine.start table { vector := some [3, 7, 40001] } {}).after
      (opening cc (⟨1⟩ : Congruential) ⟨2⟩ ⟨3⟩)
    let calls : List (List Int64) := [[3, 7, -25536, 0], [3, 8, 40001, 0], [3, 7, 40001, 0]]
    Context.generate ⟨4, 65537⟩ = .ok cc ∧ packingBound < cc.plaintextModulus ∧
      Decides Congruential cc ∧
      (calls.mapM verify : Action Producer Congruential (List Bool)).run' (machine.data, ⟨4⟩) =
        some [true, false, true] := by
  intro cc machine calls
  have hContext : Context.generate ⟨4, 65537⟩ = .ok cc := by decide
  have hModulus : packingBound < cc.plaintextModulus := by decide
  exact ⟨hContext, hModulus, decides_of_generate hContext hModulus Congruential,
    by decide +kernel⟩

end Producer

end CipherRelay.Handoff
