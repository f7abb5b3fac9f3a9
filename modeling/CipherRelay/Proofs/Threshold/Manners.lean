import CipherRelay.Proofs.Party.Manners
import CipherRelay.Proofs.Threshold.Paths
/-!
The manners of Alice and Bob. Only the step that fuses the shares of an operation touches the list
of verified operations, and it does so once it can fail no more. Elsewhere a failure leaves at most
one piece behind: Alice keeps a third ciphertext that cannot be evaluated, and Bob keeps the product
key where the inputs have no slot each.
-/
namespace CipherRelay.Threshold

open Exchange Party Scheme

variable {ρ : Type} [RandomSource ρ]

namespace Knowledge

/-- What an operation should decrypt to, as far as its context says. -/
def foreseen? (known : Knowledge) (operation : Operation) : Option (List Int64) :=
  known.context.bind fun cc =>
    (expected operation cc.ringDimension.toNat cc.plaintextModulus).toOption

/-- What a step makes of the verified operations. A step that fuses the shares of an operation adds
the operation or ends the pass, and no other step changes anything. -/
def Notes (fuses : Option (Operation × Option (List Int64))) (known after : Knowledge) : Prop :=
  match fuses with
  | none => after.verified = known.verified ∧ after.unrefuted = known.unrefuted
  | some (operation, joint) => ∃ fused want, joint = some fused ∧
      known.foreseen? operation = some want ∧
      after.verified = (if fused = want then known.verified ++ [operation] else known.verified) ∧
      after.unrefuted = (known.unrefuted && decide (fused = want))

omit [RandomSource ρ]

variable {concerns : Context → Prop} {E : PartyError → Knowledge → Prop} {known : Knowledge}

theorem operationOf_ends {tag : Tag} {operation : Operation}
    (hTag : tag.artifact?.bind ArtifactKind.operation? = some operation)
    {Q : Operation → Knowledge → Prop} (h : Q operation known) :
    Action.Ends concerns E known (operationOf tag : Action Knowledge ρ Operation) Q := by
  rw [operationOf, hTag]
  exact .pure h

theorem resultFor_ends {operation : Operation} (hMissing : ∀ error, known.results = none →
      E error known) {Q : Ciphertext → Knowledge → Prop}
    (h : ∀ results, known.results = some results → Q (results.get operation) known) :
    Action.Ends concerns E known (resultFor operation : Action Knowledge ρ Ciphertext) Q :=
  .data (.require (hMissing _) fun results hResults => .pure (h results hResults))

/-- The results pass the check. -/
theorem evaluate_ends (hConcerns : ∀ cc, known.context = some cc → concerns cc)
    (hError : ∀ error, E error known) {Q : Unit → Knowledge → Prop}
    (h : ∀ cc results, known.context = some cc →
      (∀ operation, cc.checkCiphertext (results.get operation) = .ok ()) →
      Q () { known with results := some results }) :
    Action.Ends concerns E known (evaluate : Action Knowledge ρ Unit) Q := by
  refine .data (.require (fun _ => hError _) fun cc hContext => .require (fun _ => hError _)
    fun multKey _ => .require (fun _ => hError _) fun sumKeys _ => ?_)
  have hcc := hConcerns cc hContext
  split
  · refine .engine (Context.evalAdd_guards _ _) hcc (fun _ _ _ => hError _) fun both _ _ =>
      .engine (Context.evalAdd_guards _ _) hcc (fun _ _ _ => hError _) fun add _ hAdd =>
      .engine (Context.evalMult_guards _ _ _) hcc (fun _ _ _ => hError _) fun mult _ hMult =>
      .engine (Context.evalSum_guards _ _) hcc (fun _ _ _ => hError _) fun sum _ hSum =>
      .last (.change (.pure (h cc _ hContext fun operation => ?_)))
    cases operation with
    | add => exact hAdd.2
    | mult => exact hMult.2
    | sum => exact hSum.2
  · exact .fail (hError _)

/-- In a context that has room for what is expected a check does not fail. -/
theorem check_ends {operation : Operation} {fused : List Int64} {cc : Context}
    (hContext : known.context = some cc) (hConcerns : concerns cc) (hRoom : cc.HasRoom)
    {Q : Unit → Knowledge → Prop}
    (h : ∀ want verified unrefuted, known.foreseen? operation = some want →
      verified = (if fused = want then known.verified ++ [operation] else known.verified) →
      unrefuted = (known.unrefuted && decide (fused = want)) →
      Q () { known with verified, unrefuted }) :
    Action.Ends concerns E known (check operation fused : Action Knowledge ρ Unit) Q := by
  refine .data (.require (by simp [hContext]) fun cc' hContext' => ?_)
  cases hContext.symm.trans hContext'
  refine .compute (computes_expected hRoom operation) hConcerns fun want hWant => ?_
  have hForeseen : known.foreseen? operation = some want := by
    rw [foreseen?, hContext, Option.bind_some, hWant]
    rfl
  split
  case isTrue hSame =>
    exact .last (.change (.pure (h want _ _ hForeseen (if_pos hSame).symm (by simp [hSame]))))
  case isFalse hOther =>
    exact .last (.change (.pure (h want _ _ hForeseen (if_neg hOther).symm (by simp [hOther]))))

end Knowledge

namespace Alice

/-- The operation whose shares are fused in a state. -/
def examines : AliceState → Option Operation
  | .requestLead operation => some operation
  | _ => none

/-- The operations whose shares have been fused by the time a state is entered. -/
def done : AliceState → List Operation
  | .requestLead operation => Operation.before operation
  | .sendMain operation => Operation.before operation ++ [operation]
  | .awaitBob => Operation.all
  | _ => []

/-- What the share in a payload and Alice's own add up to, as far as they do. -/
def joint? (known : Knowledge) (operation : Operation) (payload : Bytes) :
    Option (List Int64) := do
  let lead : Share ← Artifact.decode? payload
  let cc ← known.context
  let keys ← known.keys
  let results ← known.results
  let main ← (cc.mainShare keys.privateKey (results.get operation)).toOption
  (cc.fuse lead main).toOption

/-- Whether Alice has kept a third ciphertext though she could not evaluate it. -/
def Loses (s : AliceState) (message : Message) (known after : Knowledge) : Prop :=
  s = .requestCt3 ∧ ∃ ct : Ciphertext, Artifact.decode? message.payload = some ct ∧
    after = { known with cts := known.cts ++ [ct] }

def manner : Manner AliceState Knowledge where
  context := Knowledge.context
  sound := way.sound
  does s message known next after :=
    next.Enters (fun s' => way.sound s' after ∧ done s' = done s ++ (examines s).toList) ∧
      Receives Knowledge.context message known after ∧
      Knowledge.Notes
        ((examines s).map fun operation => (operation, joint? known operation message.payload))
        known after
  fails s message known _ after :=
    after = known ∧ (∀ operation, examines s = some operation →
      joint? known operation message.payload = none) ∨ Loses s message known after

variable {concerns : Context → Prop} {E : PartyError → Knowledge → Prop} {known : Knowledge}
  {operation : Operation} {message : Message}

omit [RandomSource ρ] in
/-- Where the shares do not add up, nothing has changed yet. -/
theorem fuseLead_ends {payload : Bytes} {lead : Share}
    (hPayload : Artifact.decode? payload = some lead)
    (hConcerns : ∀ cc, known.context = some cc → concerns cc)
    (hError : joint? known operation payload = none → ∀ error, E error known)
    {Q : Share × List Int64 → Knowledge → Prop}
    (h : ∀ cc main fused, known.context = some cc → cc.HasRoom →
      joint? known operation payload = some fused → Q (main, fused) known) :
    Action.Ends concerns E known
      (fuseLead operation lead : Action Knowledge ρ (Share × List Int64)) Q := by
  refine .data (.require (fun hNone => hError (by simp [joint?, hNone]) _) fun cc hContext =>
    .require (fun hNone => hError (by simp [joint?, hNone]) _) fun keys hKeys => .bind ?_)
  refine Knowledge.resultFor_ends (fun _ hNone => hError (by simp [joint?, hNone]) _)
    fun results hResults => ?_
  refine .engine (Context.mainShare_guards _ _) (hConcerns cc hContext) ?_ fun main hMain _ =>
    .engine (Context.fuse_guards _ _) (hConcerns cc hContext) ?_ fun fused hFused hFits =>
    .pure (h cc main fused hContext (hFits.1 _ List.mem_cons_self).1.1 ?_)
  · intro error hRefused _
    exact hError (by
      simp [joint?, hPayload, hContext, hKeys, hResults, hRefused, Except.toOption]) _
  · intro error hRefused _
    exact hError (by
      simp [joint?, hPayload, hContext, hKeys, hResults, hMain, hRefused, Except.toOption]) _
  · simp [joint?, hPayload, hContext, hKeys, hResults, hMain, hFused, Except.toOption]

/-- In the states before the first joint decryption a failure may be had anywhere, as long as
nothing has changed. -/
theorem fails_of_examines {s : AliceState} (h : examines s = none) (error : PartyError) :
    manner.fails s message known error known :=
  .inl ⟨rfl, by simp [h]⟩

omit [RandomSource ρ] in
/-- Alice keeps a ciphertext, and from the third one on she evaluates what she has. -/
theorem onCiphertext_ends {s : AliceState} (hState : s = .requestCt1 ∨ s = .requestCt2 ∨
      s = .requestCt3) (hSound : way.sound s known)
    (hConcerns : ∀ cc, known.context = some cc → concerns cc) :
    Action.Ends concerns (manner.fails s message known) known
      (onCiphertext message : Action Knowledge ρ (Next AliceState))
      (manner.does s message known) := by
  have hExamines : examines s = none := by rcases hState with rfl | rfl | rfl <;> rfl
  refine .decode (fun _ => fails_of_examines hExamines) fun ct hDecode => .change (.data ?_)
  have hLength : (known.cts ++ [ct]).length = known.cts.length + 1 := List.length_append
  rcases hState with rfl | rfl | rfl
  · have hCts : known.cts = [] := hSound
    rw [hCts]
    exact .pure ⟨⟨rfl, rfl⟩, .inl rfl, rfl, rfl⟩
  · obtain ⟨first, hCts⟩ := List.length_eq_one_iff.mp hSound
    rw [hCts]
    exact .pure ⟨⟨Nat.le_refl _, rfl⟩, .inl rfl, rfl, rfl⟩
  · have hMany : 2 ≤ known.cts.length := hSound
    split
    case h_1 hOne => exact absurd (hLength.symm.trans hOne) (by omega)
    case h_2 hTwo => exact absurd (hLength.symm.trans hTwo) (by omega)
    case h_3 =>
      refine .bind (Knowledge.evaluate_ends ?_ ?_ ?_)
      · exact hConcerns
      · exact fun _ => .inr ⟨rfl, ct, hDecode, rfl⟩
      · exact fun _ results _ _ => .pure ⟨⟨trivial, rfl⟩, .inl rfl, rfl, rfl⟩

omit [RandomSource ρ] in
/-- Alice notes what the shares of an operation add up to. -/
theorem onLead_ends (hTag : message.tag = .send (.partialLead operation))
    (hConcerns : ∀ cc, known.context = some cc → concerns cc) :
    Action.Ends concerns (manner.fails (.requestLead operation) message known) known
      (onLead message : Action Knowledge ρ (Next AliceState))
      (manner.does (.requestLead operation) message known) := by
  have hOperation : message.tag.artifact?.bind ArtifactKind.operation? = some operation := by
    rw [hTag]
    rfl
  have hError (hNone : joint? known operation message.payload = none) (error : PartyError) :
      manner.fails (.requestLead operation) message known error known := by
    refine .inl ⟨rfl, ?_⟩
    rintro _ ⟨⟩
    exact hNone
  refine .bind (Knowledge.operationOf_ends hOperation
    (.decode (fun hNone => hError (by simp [joint?, hNone])) fun lead hDecode => ?_))
  refine .bind (fuseLead_ends hDecode hConcerns hError
    fun cc main fused hContext hRoom hJoint => ?_)
  refine .bind (Knowledge.check_ends hContext (hConcerns cc hContext) hRoom ?_)
  intro want verified unrefuted hWant hVerified hUnrefuted
  exact .pure ⟨⟨trivial, rfl⟩, .inl rfl, fused, want, hJoint, hWant, hVerified, hUnrefuted⟩

/-- All steps of Alice keep to her manner. -/
theorem governs : manner.Governs (table : StepTable AliceState Knowledge ρ) where
  steps s step message known hStep hTag hSound := by
    rw [get?_table] at hStep
    cases hStep
    have hError := fun (h : examines s = none) (error : PartyError) =>
      (fails_of_examines h error : manner.fails s message known error known)
    cases s with
    | getMessage | sendRnd1EvalSumKeys | sendRnd3EvalMultFinal =>
        exact .pure ⟨⟨hSound, rfl⟩, .inl rfl, rfl, rfl⟩
    | requestCC =>
        refine .decode (fun _ => hError rfl) fun cc hDecode => ?_
        have hOffers : Offers message cc := ⟨hTag, hDecode⟩
        refine .keyGen (.inr hOffers) fun keys _ hSecret => ?_
        refine .draw (Context.productKey_answers (E := fun _ => False) hSecret) (.inr hOffers)
          (fun _ => False.elim) fun mult _ => ?_
        refine .draw (Context.sumKeys_answers (E := fun _ => False) hSecret) (.inr hOffers)
          (fun _ => False.elim) fun sum _ => ?_
        exact .change (.pure ⟨⟨hSound, rfl⟩, .inr ⟨cc, hOffers, rfl⟩, rfl, rfl⟩)
    | sendRnd1PubKey | sendRnd1EvalMultKey =>
        exact .data (.require (fun _ => hError rfl _) fun _ _ =>
          .change (.pure ⟨⟨hSound, rfl⟩, .inl rfl, rfl, rfl⟩))
    | requestRnd2SharedKey =>
        exact .decode (fun _ => hError rfl) fun _ _ => .pure ⟨⟨hSound, rfl⟩, .inl rfl, rfl, rfl⟩
    | requestRnd2EvalMultAB | requestRnd2EvalSumKeysJoin =>
        exact .decode (fun _ => hError rfl) fun _ _ =>
          .change (.pure ⟨⟨hSound, rfl⟩, .inl rfl, rfl, rfl⟩)
    | requestRnd2EvalMultBAB =>
        exact .decode (fun _ => hError rfl) fun bab _ => .data (
          .require (fun _ => hError rfl _) fun cc hContext =>
          .require (fun _ => hError rfl _) fun keys _ =>
          .require (fun _ => hError rfl _) fun ab _ =>
          .engine (Context.productKeyFinal_guards _ _ _) (.inl hContext)
            (fun _ _ _ => hError rfl _) fun multKey _ _ =>
          .change (.pure ⟨⟨hSound, rfl⟩, .inl rfl, rfl, rfl⟩))
    | requestCt1 => exact onCiphertext_ends (.inl rfl) hSound fun _ => .inl
    | requestCt2 => exact onCiphertext_ends (.inr (.inl rfl)) hSound fun _ => .inl
    | requestCt3 => exact onCiphertext_ends (.inr (.inr rfl)) hSound fun _ => .inl
    | requestLead operation => exact onLead_ends hTag fun _ => .inl
    | sendMain operation =>
        have hOperation : message.tag.artifact?.bind ArtifactKind.operation? = some operation :=
          hTag ▸ rfl
        refine .bind (Knowledge.operationOf_ends hOperation ?_)
        cases operation <;> exact .pure ⟨⟨trivial, rfl⟩, .inl rfl, rfl, rfl⟩
    | awaitBob => exact .pure ⟨trivial, .inl rfl, rfl, rfl⟩
  onward _ _ _ _ _ _ hDoes := hDoes.1.1
  brings _ _ _ _ _ hDoes := hDoes.2.1
  back s message known error after hSound hFails := by
    rcases hFails with ⟨rfl, -⟩ | ⟨rfl, ct, -, rfl⟩
    · exact ⟨hSound, rfl⟩
    · refine ⟨?_, rfl⟩
      have hMany : 2 ≤ known.cts.length := hSound
      simp [manner, way]
      omega

end Alice

namespace Bob

/-- The operation whose shares are fused in a state. -/
def examines : BobState → Option Operation
  | .requestMain operation => some operation
  | _ => none

/-- The operations whose shares have been fused by the time a state is entered. -/
def done : BobState → List Operation
  | .sendLead operation | .requestMain operation => Operation.before operation
  | _ => []

/-- What the share in a payload and Bob's own add up to, as far as they do. -/
def joint? (known : Knowledge) (operation : Operation) (payload : Bytes) :
    Option (List Int64) := do
  let main : Share ← Artifact.decode? payload
  let cc ← known.context
  let keys ← known.keys
  let results ← known.results
  let lead ← (cc.leadShare keys.privateKey (results.get operation)).toOption
  (cc.fuse lead main).toOption

/-- Whether Bob has a context and keys that pass the checks. -/
def Keyed (known : Knowledge) : Prop :=
  ∃ cc keys, known.context = some cc ∧ known.keys = some keys ∧
    known.jointKey = some keys.publicKey ∧ cc.checkPublic keys.publicKey = .ok () ∧
    cc.Passes keys.privateKey.s

/-- Whether Bob has results as well, and they pass the check. -/
def Evaluated (known : Knowledge) : Prop :=
  ∃ cc keys results, known.context = some cc ∧ known.keys = some keys ∧
    known.results = some results ∧ cc.Passes keys.privateKey.s ∧
    ∀ operation, cc.checkCiphertext (results.get operation) = .ok ()

def sound : BobState → Knowledge → Prop
  | .getMessage | .requestCC | .requestRnd1PubKey => fun _ => True
  | .sendLead _ | .requestMain _ => Evaluated
  | _ => Keyed

/-- Whether Bob has kept the product key though the inputs have no slot each. -/
def Loses (s : BobState) (message : Message) (known : Knowledge) (error : PartyError)
    (after : Knowledge) : Prop :=
  s = .requestRnd3EvalMultFinal ∧ ∃ (cc : Context) (multKey : SwitchKey),
    known.context = some cc ∧ Artifact.decode? message.payload = some multKey ∧
    cc.ringDimension.toNat < 12 ∧ error = .engine (.dimensionMismatch cc.ringDimension 12) ∧
    after = { known with multKey := some multKey }

def manner : Manner BobState Knowledge where
  context := Knowledge.context
  sound := sound
  does s message known next after :=
    next.Enters (fun s' => sound s' after ∧ done s' = done s ++ (examines s).toList) ∧
      Receives Knowledge.context message known after ∧
      Knowledge.Notes
        ((examines s).map fun operation => (operation, joint? known operation message.payload))
        known after
  fails s message known error after :=
    after = known ∧ (∀ operation, examines s = some operation →
      joint? known operation message.payload = none) ∨ Loses s message known error after

variable {concerns : Context → Prop} {E : PartyError → Knowledge → Prop} {known : Knowledge}
  {operation : Operation} {message : Message}

section Shares

omit [RandomSource ρ]

/-- With results that pass the check Bob's share can always be had. -/
theorem leadShare_ends (hEvaluated : Evaluated known)
    (hConcerns : ∀ cc, known.context = some cc → concerns cc) {Q : Share → Knowledge → Prop}
    (h : ∀ cc keys results share, known.context = some cc → known.keys = some keys →
      known.results = some results →
      cc.leadShare keys.privateKey (results.get operation) = .ok share → Q share known) :
    Action.Ends concerns E known (leadShare operation : Action Knowledge ρ Share) Q := by
  obtain ⟨cc, keys, results, hContext, hKeys, hResults, hKey, hFits⟩ := hEvaluated
  refine .data (.require (by simp [hContext]) fun cc' hContext' =>
    .require (by simp [hKeys]) fun keys' hKeys' => .bind (Knowledge.resultFor_ends
      (by simp [hResults]) fun results' hResults' => .last ?_))
  cases hContext.symm.trans hContext'
  cases hKeys.symm.trans hKeys'
  cases hResults.symm.trans hResults'
  refine .engine (Context.leadShare_answers _ _) (hConcerns cc hContext) ?_
    fun share hShare _ => .pure (h cc keys results share hContext hKeys hResults hShare)
  exact fun _ _ hUnfit => absurd ⟨hKey, hFits operation⟩ hUnfit

/-- With results that pass the check Bob sends his share and cannot fail. -/
theorem sendLead_ends (hEvaluated : Evaluated known)
    (hConcerns : ∀ cc, known.context = some cc → concerns cc) {Q : Next BobState → Knowledge → Prop}
    (h : ∀ sent, Q (.send sent (.sendLead operation)) known) :
    Action.Ends concerns E known (sendLead operation : Action Knowledge ρ (Next BobState)) Q :=
  .bind (leadShare_ends hEvaluated hConcerns fun _ _ _ _ _ _ _ _ => .pure (h _))

/-- Where the shares do not add up, nothing has changed yet. -/
theorem fuseMain_ends {payload : Bytes} {main : Share}
    (hPayload : Artifact.decode? payload = some main) (hEvaluated : Evaluated known)
    (hConcerns : ∀ cc, known.context = some cc → concerns cc)
    (hError : joint? known operation payload = none → ∀ error, E error known)
    {Q : List Int64 → Knowledge → Prop}
    (h : ∀ fused, joint? known operation payload = some fused → Q fused known) :
    Action.Ends concerns E known (fuseMain operation main : Action Knowledge ρ (List Int64)) Q := by
  refine .data (.require (fun hNone => hError (by simp [joint?, hNone]) _) fun cc hContext =>
    .bind (leadShare_ends hEvaluated hConcerns ?_))
  intro cc' keys results lead hContext' hKeys hResults hLead
  cases hContext.symm.trans hContext'
  refine .last (.engine (Context.fuse_guards _ _) (hConcerns cc hContext) ?_
    fun fused hFused _ => .pure (h fused ?_))
  · intro error hRefused _
    exact hError (by
      simp [joint?, hPayload, hContext, hKeys, hResults, hLead, hRefused, Except.toOption]) _
  · simp [joint?, hPayload, hContext, hKeys, hResults, hLead, hFused, Except.toOption]

/-- Bob notes what the shares of an operation add up to. Once he has done so, he cannot fail. -/
theorem onMain_ends (hTag : message.tag = .send (.partialMain operation))
    (hEvaluated : Evaluated known) (hConcerns : ∀ cc, known.context = some cc → concerns cc) :
    Action.Ends concerns (manner.fails (.requestMain operation) message known) known
      (onMain message : Action Knowledge ρ (Next BobState))
      (manner.does (.requestMain operation) message known) := by
  have hOperation : message.tag.artifact?.bind ArtifactKind.operation? = some operation := by
    rw [hTag]
    rfl
  have hError (hNone : joint? known operation message.payload = none) (error : PartyError) :
      manner.fails (.requestMain operation) message known error known := by
    refine .inl ⟨rfl, ?_⟩
    rintro _ ⟨⟩
    exact hNone
  refine .bind (Knowledge.operationOf_ends hOperation
    (.decode (fun hNone => hError (by simp [joint?, hNone])) fun main hDecode => ?_))
  refine .bind (fuseMain_ends hDecode hEvaluated hConcerns hError fun fused hJoint => ?_)
  have ⟨cc, _, _, hContext, _, _, hKey, _⟩ := hEvaluated
  refine .bind (Knowledge.check_ends hContext (hConcerns cc hContext) hKey.hasRoom ?_)
  intro want verified unrefuted hWant hVerified hUnrefuted
  have hNotes : Knowledge.Notes (some (operation, joint? known operation message.payload)) known
      { known with verified, unrefuted } :=
    ⟨fused, want, hJoint, hWant, hVerified, hUnrefuted⟩
  have hAfter : Evaluated { known with verified, unrefuted } := hEvaluated
  cases operation with
  | add | mult =>
      exact sendLead_ends hAfter hConcerns fun _ => ⟨⟨hAfter, rfl⟩, .inl rfl, hNotes⟩
  | sum => exact .pure ⟨trivial, .inl rfl, hNotes⟩

end Shares

/-- Where no shares are fused, a failure may be had anywhere, as long as nothing has changed. -/
theorem fails_of_examines {s : BobState} (h : examines s = none) (error : PartyError) :
    manner.fails s message known error known :=
  .inl ⟨rfl, by simp [h]⟩

/-- Bob keeps the product key and encrypts the inputs, as far as they have a slot each. -/
theorem onFinal_ends (hKeyed : Keyed known)
    (hConcerns : ∀ cc, known.context = some cc → concerns cc) :
    Action.Ends concerns (manner.fails .requestRnd3EvalMultFinal message known) known
      (onFinal message : Action Knowledge ρ (Next BobState))
      (manner.does .requestRnd3EvalMultFinal message known) := by
  refine .decode (fun _ => fails_of_examines rfl) fun multKey hDecode => .change (.data ?_)
  obtain ⟨cc, keys, hContext, hKeys, hJoint, hCheck, hKey⟩ := hKeyed
  refine .require (by simp [hContext]) fun cc' hContext' =>
    .require (by simp [hJoint]) fun jointKey hJoint' => ?_
  cases hContext.symm.trans hContext'
  cases hJoint.symm.trans hJoint'
  have hRefused {input : List Int64} (hLength : input.length = 12) (error : EngineError)
      (hError : cc.ringDimension.toNat < input.length ∧
        error = .dimensionMismatch cc.ringDimension input.length.toUInt64) :
      manner.fails .requestRnd3EvalMultFinal message known (.engine error)
        { known with multKey := some multKey } := by
    rw [hLength] at hError
    obtain ⟨hFew, rfl⟩ := hError
    exact .inr ⟨rfl, cc, multKey, hContext, hDecode, hFew, rfl, rfl⟩
  have hcc := hConcerns cc hContext
  refine .draw (Context.encrypt_answers hCheck firstInput) hcc (hRefused rfl) fun ct1 _ =>
    .draw (Context.encrypt_answers hCheck secondInput) hcc (hRefused rfl) fun ct2 _ =>
    .draw (Context.encrypt_answers hCheck thirdInput) hcc (hRefused rfl) fun ct3 _ => ?_
  refine .change (.pure ⟨⟨?_, rfl⟩, .inl rfl, rfl, rfl⟩)
  exact ⟨cc, keys, hContext, hKeys, hJoint, hCheck, hKey⟩

/-- All steps of Bob keep to his. -/
theorem governs : manner.Governs (table : StepTable BobState Knowledge ρ) where
  steps s step message known hStep hTag hSound := by
    rw [get?_table] at hStep
    cases hStep
    have hError := fun (h : examines s = none) (error : PartyError) =>
      (fails_of_examines h error : manner.fails s message known error known)
    cases s with
    | getMessage | sendRnd2EvalSumKeysJoin => exact .pure ⟨⟨hSound, rfl⟩, .inl rfl, rfl, rfl⟩
    | requestCC =>
        refine .decode (fun _ => hError rfl) fun cc hDecode => .change ?_
        have hOffers : Offers message cc := ⟨hTag, hDecode⟩
        exact .pure ⟨⟨trivial, rfl⟩, .inr ⟨cc, hOffers, rfl⟩, rfl, rfl⟩
    | requestRnd1PubKey =>
        refine .decode (fun _ => hError rfl) fun lead _ => .data (
          .require (fun _ => hError rfl _) fun cc hContext =>
          .draw (Context.jointKeyGen_guards lead) (.inl hContext) (fun _ _ => hError rfl _)
            fun keys hKeys => .change (.pure ⟨⟨?_, rfl⟩, .inl rfl, rfl, rfl⟩))
        exact ⟨cc, keys, hContext, rfl, rfl, hKeys.2⟩
    | requestRnd1EvalMultKey =>
        exact .decode (fun _ => hError rfl) fun _ _ =>
          .change (.pure ⟨⟨hSound, rfl⟩, .inl rfl, rfl, rfl⟩)
    | requestRnd1EvalSumKeys =>
        refine .decode (fun _ => hError rfl) fun sum _ => .change (.data ?_)
        have hKeyed : Keyed known := hSound
        obtain ⟨cc, keys, -, -, hJoint, -⟩ := hKeyed
        exact .require (by simp [hJoint]) fun _ _ => .pure ⟨⟨hSound, rfl⟩, .inl rfl, rfl, rfl⟩
    | sendRnd2SharedKey =>
        exact .data (.require (fun _ => hError rfl _) fun cc hContext =>
          .require (fun _ => hError rfl _) fun keys _ =>
          .require (fun _ => hError rfl _) fun first _ =>
          .engine (Context.productKeyAB_guards _ _) (.inl hContext) (fun _ _ _ => hError rfl _)
            fun ab _ _ => .change (.pure ⟨⟨hSound, rfl⟩, .inl rfl, rfl, rfl⟩))
    | sendRnd2EvalMultAB =>
        exact .data (.require (fun _ => hError rfl _) fun cc hContext =>
          .require (fun _ => hError rfl _) fun keys _ =>
          .require (fun _ => hError rfl _) fun ab _ =>
          .engine (Context.productKeyBAB_guards _ _) (.inl hContext) (fun _ _ _ => hError rfl _)
            fun bab _ _ => .change (.pure ⟨⟨hSound, rfl⟩, .inl rfl, rfl, rfl⟩))
    | sendRnd2EvalMultBAB =>
        exact .data (.require (fun _ => hError rfl _) fun cc hContext =>
          .require (fun _ => hError rfl _) fun keys _ =>
          .require (fun _ => hError rfl _) fun first _ =>
          .engine (Context.sumKeysJoin_guards _ _) (.inl hContext) (fun _ _ _ => hError rfl _)
            fun sumKeys _ _ => .change (.pure ⟨⟨hSound, rfl⟩, .inl rfl, rfl, rfl⟩))
    | requestRnd3EvalMultFinal => exact onFinal_ends hSound fun _ => .inl
    | sendCt1 | sendCt2 =>
        obtain ⟨tag, payload⟩ := message
        cases hTag
        exact .data (.require (fun _ => hError rfl _) fun _ _ =>
          .pure ⟨⟨hSound, rfl⟩, .inl rfl, rfl, rfl⟩)
    | sendCt3 =>
        obtain ⟨cc, keys, hContext, hKeys, -, -, hKey⟩ := (hSound : Keyed known)
        obtain ⟨tag, payload⟩ := message
        cases hTag
        refine .bind (Knowledge.evaluate_ends (fun _ => .inl) (hError rfl)
          fun cc' results hContext' hFits => ?_)
        cases hContext.symm.trans hContext'
        have hEvaluated : Evaluated { known with results := some results } :=
          ⟨cc, keys, results, hContext, hKeys, rfl, hKey, hFits⟩
        exact sendLead_ends hEvaluated (fun _ => .inl)
          fun _ => ⟨⟨hEvaluated, rfl⟩, .inl rfl, rfl, rfl⟩
    | sendLead operation =>
        have hOperation : message.tag.artifact?.bind ArtifactKind.operation? = some operation :=
          hTag ▸ rfl
        refine .bind (Knowledge.operationOf_ends hOperation ?_)
        exact .pure ⟨⟨hSound, (List.append_nil _).symm⟩, .inl rfl, rfl, rfl⟩
    | requestMain operation => exact onMain_ends hTag hSound fun _ => .inl
  onward _ _ _ _ _ _ hDoes := hDoes.1.1
  brings _ _ _ _ _ hDoes := hDoes.2.1
  back s message known error after hSound hFails := by
    rcases hFails with ⟨rfl, -⟩ | ⟨rfl, cc, multKey, -, -, -, -, rfl⟩
    · exact ⟨hSound, rfl⟩
    · exact ⟨hSound, rfl⟩

end Bob

end CipherRelay.Threshold
