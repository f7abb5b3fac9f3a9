import CipherRelay.Proofs.Exchange.Pace
import CipherRelay.Proofs.Party.Paths
import CipherRelay.Proofs.Threshold.Conduct
/-!
The paths of Alice and Bob. What a state keeps for the steps to come is a list of pieces, some of
which are given up as soon as they have been used. Alice counts the ciphertexts that she has
collected, so their number must be right even where something has failed.
-/
namespace CipherRelay.Threshold

open Exchange Party Scheme

variable {ρ : Type} [RandomSource ρ]

/-- A piece of what a party of a threshold run knows. -/
inductive Piece
  | context
  | keys
  | multRnd1
  | sumRnd1
  | jointKey
  | multAB
  | multKey
  | sumKeys
  | results
  deriving DecidableEq

/-- Whether a party has a piece. -/
def Knowledge.Has (known : Knowledge) : Piece → Prop
  | .context => known.context.isSome
  | .keys => known.keys.isSome
  | .multRnd1 => known.multRnd1.isSome
  | .sumRnd1 => known.sumRnd1.isSome
  | .jointKey => known.jointKey.isSome
  | .multAB => known.multAB.isSome
  | .multKey => known.multKey.isSome
  | .sumKeys => known.sumKeys.isSome
  | .results => known.results.isSome

namespace Knowledge

omit [RandomSource ρ]

variable {clean : Prop} {keeps : Knowledge → Prop} {known : Knowledge}

theorem operationOf_meets {tag : Tag} {operation : Operation}
    (hTag : tag.artifact?.bind ArtifactKind.operation? = some operation)
    {Q : Operation → Knowledge → Prop} (h : Q operation known) :
    Action.Meets clean keeps known (operationOf tag : Action Knowledge ρ Operation) Q := by
  rw [operationOf, hTag]
  exact .pure h

theorem resultFor_meets {operation : Operation} (hResults : clean → known.Has .results)
    {Q : Ciphertext → Knowledge → Prop} (h : ∀ ct, Q ct known) :
    Action.Meets clean keeps known (resultFor operation : Action Knowledge ρ Ciphertext) Q :=
  .data (.require hResults fun _ _ => .pure (h _))

/-- The three ciphertexts are evaluated with what the key agreement has left. -/
theorem evaluate_meets (hContext : clean → known.Has .context) (hMult : clean → known.Has .multKey)
    (hSum : clean → known.Has .sumKeys) (hCts : clean → known.cts.length = 3)
    (hKeeps : ∀ results, keeps known → keeps { known with results })
    {Q : Unit → Knowledge → Prop} (h : ∀ results, Q () { known with results := some results }) :
    Action.Meets clean keeps known (evaluate : Action Knowledge ρ Unit) Q := by
  refine .data (.require hContext fun cc _ => .require hMult fun multKey _ =>
    .require hSum fun sumKeys _ => ?_)
  split
  · refine .engine fun both => .engine fun add => .engine fun mult => .engine fun sum => .last ?_
    exact .change (hKeeps _) (.pure (h _))
  · rename_i hOther
    refine .fail fun hClean => ?_
    obtain ⟨ct1, ct2, ct3, hThree⟩ := List.length_eq_three.mp (hCts hClean)
    exact hOther ct1 ct2 ct3 hThree

/-- A check says what it has found and leaves everything else as it is. -/
theorem check_meets {operation : Operation} {fused : List Int64}
    (hContext : clean → known.Has .context)
    (hKeeps : ∀ verified unrefuted, keeps known → keeps { known with verified, unrefuted })
    {Q : Unit → Knowledge → Prop}
    (h : ∀ verified unrefuted, Q () { known with verified, unrefuted }) :
    Action.Meets clean keeps known (check operation fused : Action Knowledge ρ Unit) Q := by
  refine .data (.require hContext fun cc _ => .compute fun expected => ?_)
  split
  · exact .last (.change (hKeeps _ _) (.pure (h _ _)))
  · exact .last (.change (hKeeps _ _) (.pure (h _ _)))

end Knowledge

/-- The pieces that Alice keeps in a state for the steps to come. -/
def AliceState.pieces : AliceState → List Piece
  | .getMessage | .requestCC | .awaitBob => []
  | .sendRnd1PubKey => [.context, .keys, .multRnd1, .sumRnd1]
  | .sendRnd1EvalMultKey => [.context, .keys, .sumRnd1]
  | .sendRnd1EvalSumKeys | .requestRnd2SharedKey | .requestRnd2EvalMultAB => [.context, .keys]
  | .requestRnd2EvalMultBAB => [.context, .keys, .multAB]
  | .sendRnd3EvalMultFinal | .requestRnd2EvalSumKeysJoin => [.context, .keys, .multKey]
  | .requestCt1 | .requestCt2 | .requestCt3 => [.context, .keys, .multKey, .sumKeys]
  | .requestLead _ | .sendMain _ => [.context, .keys, .results]

namespace Alice

def way : Way AliceState Knowledge where
  role := .alice
  path := path
  asks s := s.errand.asks?
  -- Until the third ciphertext she goes by their number, so it must be right even after a failure.
  sound s known := match s with
    | .requestCt2 => known.cts.length = 1
    | .requestCt3 => 2 ≤ known.cts.length
    | .requestLead _ | .sendMain _ | .awaitBob => True
    | _ => known.cts = []
  ready s known := (∀ piece ∈ s.pieces, known.Has piece) ∧
    (s = .requestCt3 → known.cts.length = 2)

variable {clean : Prop} {known : Knowledge} {operation : Operation} {message : Message}

section Collecting

omit [RandomSource ρ]

/-- With the first ciphertext Alice asks for the second one. -/
theorem onCiphertext_meets_first (hReady : clean → way.ready .requestCt1 known) :
    Action.Meets clean (way.sound .requestCt1) known
      (onCiphertext message : Action Knowledge ρ (Next AliceState))
      (way.Leads clean .requestCt1) := by
  refine .decode fun ct hSound source => ?_
  have hCts : known.cts = [] := hSound
  rw [Action.change_bind, Action.data_bind, hCts]
  exact ⟨by decide, rfl, rfl, fun hClean => ⟨(hReady hClean).1, by simp⟩⟩

/-- With the second one she asks for the third. -/
theorem onCiphertext_meets_second (hReady : clean → way.ready .requestCt2 known) :
    Action.Meets clean (way.sound .requestCt2) known
      (onCiphertext message : Action Knowledge ρ (Next AliceState))
      (way.Leads clean .requestCt2) := by
  refine .decode fun ct hSound source => ?_
  obtain ⟨first, hCts⟩ := List.length_eq_one_iff.mp hSound
  rw [Action.change_bind, Action.data_bind, hCts]
  exact ⟨by decide, rfl, Nat.le_refl _, fun hClean => ⟨(hReady hClean).1, fun _ => rfl⟩⟩

/-- With the third one, or a later one after a failure, she evaluates them. -/
theorem onCiphertext_meets_third (hReady : clean → way.ready .requestCt3 known) :
    Action.Meets clean (way.sound .requestCt3) known
      (onCiphertext message : Action Knowledge ρ (Next AliceState))
      (way.Leads clean .requestCt3) := by
  refine .decode fun ct => .given fun hSound => ?_
  have hMany : 2 ≤ known.cts.length := hSound
  have hSound' : way.sound .requestCt3 { known with cts := known.cts ++ [ct] } := by
    simp [way]
    omega
  refine .change (fun _ => hSound') (.data ?_)
  have hLength : (known.cts ++ [ct]).length = known.cts.length + 1 := List.length_append
  split
  case h_1 hOne => exact absurd (hLength.symm.trans hOne) (by omega)
  case h_2 hTwo => exact absurd (hLength.symm.trans hTwo) (by omega)
  case h_3 =>
    have hPieces (hClean : clean) := (hReady hClean).1
    refine .bind (Knowledge.evaluate_meets ?context ?mult ?sum ?cts (fun _ => id) fun results => ?_)
    case context => exact fun hClean => hPieces hClean .context (by decide)
    case mult => exact fun hClean => hPieces hClean .multKey (by decide)
    case sum => exact fun hClean => hPieces hClean .sumKeys (by decide)
    case cts => exact fun hClean => by rw [hLength, (hReady hClean).2 rfl]
    refine ⟨hSound', .pure ⟨by decide, rfl, trivial, fun hClean => ⟨?_, by simp⟩⟩⟩
    have hBefore := hPieces hClean
    simp [AliceState.pieces, Knowledge.Has] at hBefore ⊢
    exact ⟨hBefore.1, hBefore.2.1⟩

end Collecting

omit [RandomSource ρ] in
/-- Alice adds her share of an operation to Bob's. -/
theorem fuseLead_meets {keeps : Knowledge → Prop} {lead : Share}
    (hContext : clean → known.Has .context) (hKeys : clean → known.Has .keys)
    (hResults : clean → known.Has .results) {Q : Share × List Int64 → Knowledge → Prop}
    (h : ∀ shares, Q shares known) :
    Action.Meets clean keeps known
      (fuseLead operation lead : Action Knowledge ρ (Share × List Int64)) Q :=
  .given fun hKeeps => .data (.require hContext fun _ _ => .require hKeys fun _ _ =>
    .bind (Knowledge.resultFor_meets hResults fun _ => ⟨hKeeps, .engine fun _ =>
      .engine fun _ => .pure (h _)⟩))

omit [RandomSource ρ] in
/-- Alice checks an operation and hands her share of it over. -/
theorem onLead_meets (hTag : message.tag = .send (.partialLead operation))
    (hReady : clean → way.ready (.requestLead operation) known) :
    Action.Meets clean (way.sound (.requestLead operation)) known
      (onLead message : Action Knowledge ρ (Next AliceState))
      (way.Leads clean (.requestLead operation)) := by
  have hOperation : message.tag.artifact?.bind ArtifactKind.operation? = some operation := by
    rw [hTag]
    rfl
  have hHas (hClean : clean) : known.Has .context ∧ known.Has .keys ∧ known.Has .results := by
    have hBefore := hReady hClean
    simp_all [way, AliceState.pieces]
  refine .bind (Knowledge.operationOf_meets hOperation ⟨trivial, .decode fun lead => ?_⟩)
  refine .bind (fuseLead_meets (fun h => (hHas h).1) (fun h => (hHas h).2.1)
    (fun h => (hHas h).2.2) fun shares => ⟨trivial, ?_⟩)
  refine .bind (Knowledge.check_meets (fun h => (hHas h).1) (fun _ _ => id)
    fun verified unrefuted => ⟨trivial, .pure ⟨?_, rfl, trivial, fun hClean => ?_⟩⟩)
  · cases operation <;> decide
  · have hBefore := hHas hClean
    simp_all [way, AliceState.pieces, Knowledge.Has]

omit [RandomSource ρ] in
/-- She goes on with the next operation, or watches Bob's last share. -/
theorem onMainStored_meets (hTag : message.tag = .ack (.partialMain operation))
    (hReady : clean → way.ready (.sendMain operation) known) :
    Action.Meets clean (way.sound (.sendMain operation)) known
      (onMainStored message : Action Knowledge ρ (Next AliceState))
      (way.Leads clean (.sendMain operation)) := by
  have hOperation : message.tag.artifact?.bind ArtifactKind.operation? = some operation := by
    rw [hTag]
    rfl
  refine .bind (Knowledge.operationOf_meets hOperation ⟨trivial, ?_⟩)
  cases operation with
  | add | mult =>
      refine .pure ⟨by decide, rfl, trivial, fun hClean => ?_⟩
      have hBefore := hReady hClean
      simp_all [way, AliceState.pieces]
  | sum => exact .pure ⟨by decide, rfl, trivial, fun _ => by simp [way, AliceState.pieces]⟩

theorem size_table : (table : StepTable AliceState Knowledge ρ).size = path.length := by
  rw [table_eq, StepTable.size_extend_map _ _ (by decide) (by simp)]
  exact Nat.zero_add _

/-- The table of Alice has a step for each state of her path, and each leads on along it. -/
theorem guides : way.Guides (table : StepTable AliceState Knowledge ρ) where
  start := rfl
  nodup := by decide
  size := size_table
  steps s _ := by
    refine ⟨_, get?_table s, fun message hTag clean l hReady => ?_⟩
    cases s with
    | getMessage =>
        refine .given fun hSound => .pure ⟨by decide, rfl, hSound, fun _ => ?_⟩
        simp [way, AliceState.pieces]
    | requestCC =>
        refine .decode fun cc => .draw fun keys => .draw fun mult => .draw fun sum =>
          .change id (.given fun hSound => .pure ⟨by decide, rfl, hSound, fun _ => ?_⟩)
        simp [way, AliceState.pieces, Knowledge.Has]
    | sendRnd1PubKey =>
        refine .data (.require (fun h => (hReady h).1 .multRnd1 (by decide)) fun key _ =>
          .change id (.given fun hSound => .pure ⟨by decide, rfl, hSound, fun hClean => ?_⟩))
        have hBefore := hReady hClean
        simp_all [way, AliceState.pieces, Knowledge.Has]
    | sendRnd1EvalMultKey =>
        refine .data (.require (fun h => (hReady h).1 .sumRnd1 (by decide)) fun keys _ =>
          .change id (.given fun hSound => .pure ⟨by decide, rfl, hSound, fun hClean => ?_⟩))
        have hBefore := hReady hClean
        simp_all [way, AliceState.pieces, Knowledge.Has]
    | sendRnd1EvalSumKeys =>
        refine .given fun hSound => .pure ⟨by decide, rfl, hSound, fun hClean => ?_⟩
        have hBefore := hReady hClean
        simp_all [way, AliceState.pieces, Knowledge.Has]
    | requestRnd2SharedKey =>
        refine .decode fun key =>
          .given fun hSound => .pure ⟨by decide, rfl, hSound, fun hClean => ?_⟩
        have hBefore := hReady hClean
        simp_all [way, AliceState.pieces, Knowledge.Has]
    | requestRnd2EvalMultAB =>
        refine .decode fun ab => .change id <|
          .given fun hSound => .pure ⟨by decide, rfl, hSound, fun hClean => ?_⟩
        have hBefore := hReady hClean
        simp_all [way, AliceState.pieces, Knowledge.Has]
    | requestRnd2EvalMultBAB =>
        refine .decode fun bab => .data (
          .require (fun h => (hReady h).1 .context (by decide)) fun cc _ =>
          .require (fun h => (hReady h).1 .keys (by decide)) fun keys _ =>
          .require (fun h => (hReady h).1 .multAB (by decide)) fun ab _ =>
          .engine fun multKey => .change id <|
          .given fun hSound => .pure ⟨by decide, rfl, hSound, fun hClean => ?_⟩)
        have hBefore := hReady hClean
        simp_all [way, AliceState.pieces, Knowledge.Has]
    | sendRnd3EvalMultFinal =>
        refine .given fun hSound => .pure ⟨by decide, rfl, hSound, fun hClean => ?_⟩
        have hBefore := hReady hClean
        simp_all [way, AliceState.pieces, Knowledge.Has]
    | requestRnd2EvalSumKeysJoin =>
        refine .decode fun sumKeys => .change id <|
          .given fun hSound => .pure ⟨by decide, rfl, hSound, fun hClean => ?_⟩
        have hBefore := hReady hClean
        simp_all [way, AliceState.pieces, Knowledge.Has]
    | requestCt1 => exact onCiphertext_meets_first hReady
    | requestCt2 => exact onCiphertext_meets_second hReady
    | requestCt3 => exact onCiphertext_meets_third hReady
    | requestLead operation => exact onLead_meets hTag hReady
    | sendMain operation => exact onMainStored_meets hTag hReady
    | awaitBob => exact .pure ⟨by decide, rfl⟩

end Alice

/-- The pieces that Bob keeps in a state for the steps to come. -/
def BobState.pieces : BobState → List Piece
  | .getMessage | .requestCC => []
  | .requestRnd1PubKey => [.context]
  | .requestRnd1EvalMultKey => [.context, .keys, .jointKey]
  | .requestRnd1EvalSumKeys => [.context, .keys, .jointKey, .multRnd1]
  | .sendRnd2SharedKey => [.context, .keys, .jointKey, .multRnd1, .sumRnd1]
  | .sendRnd2EvalMultAB => [.context, .keys, .jointKey, .multAB, .sumRnd1]
  | .sendRnd2EvalMultBAB => [.context, .keys, .jointKey, .sumRnd1]
  | .sendRnd2EvalSumKeysJoin | .requestRnd3EvalMultFinal => [.context, .keys, .jointKey, .sumKeys]
  | .sendCt1 | .sendCt2 | .sendCt3 => [.context, .keys, .multKey, .sumKeys]
  | .sendLead _ | .requestMain _ => [.context, .keys, .results]

namespace Bob

def way : Way BobState Knowledge where
  role := .bob
  path := path
  asks s := s.errand.asks?
  sound _ _ := True
  ready s known := (∀ piece ∈ s.pieces, known.Has piece) ∧
    (s = .sendCt1 ∨ s = .sendCt2 ∨ s = .sendCt3 → known.cts.length = 3)

variable {clean : Prop} {known : Knowledge} {operation : Operation}

section Shares

omit [RandomSource ρ]

theorem leadShare_meets {keeps : Knowledge → Prop} (hContext : clean → known.Has .context)
    (hKeys : clean → known.Has .keys) (hResults : clean → known.Has .results)
    {Q : Share → Knowledge → Prop} (h : ∀ share, Q share known) :
    Action.Meets clean keeps known (leadShare operation : Action Knowledge ρ Share) Q :=
  .given fun hKeeps => .data (.require hContext fun _ _ => .require hKeys fun _ _ =>
    .bind (Knowledge.resultFor_meets hResults fun _ => ⟨hKeeps, .last (.engine fun share =>
      .pure (h share))⟩))

/-- Bob adds Alice's share of an operation to his. -/
theorem fuseMain_meets {keeps : Knowledge → Prop} {main : Share}
    (hContext : clean → known.Has .context) (hKeys : clean → known.Has .keys)
    (hResults : clean → known.Has .results) {Q : List Int64 → Knowledge → Prop}
    (h : ∀ fused, Q fused known) :
    Action.Meets clean keeps known
      (fuseMain operation main : Action Knowledge ρ (List Int64)) Q :=
  .given fun hKeeps => .data (.require hContext fun _ _ =>
    .bind (leadShare_meets hContext hKeys hResults fun _ => ⟨hKeeps, .last (.engine fun fused =>
      .pure (h fused))⟩))

/-- Bob hands over his share of an operation, if that is next. -/
theorem sendLead_meets {s : BobState} (hNext : [s, .sendLead operation] <:+: path)
    (hHas : clean → known.Has .context ∧ known.Has .keys ∧ known.Has .results) :
    Action.Meets clean (way.sound s) known
      (sendLead operation : Action Knowledge ρ (Next BobState)) (way.Leads clean s) := by
  refine .bind (leadShare_meets (fun h => (hHas h).1) (fun h => (hHas h).2.1)
    (fun h => (hHas h).2.2) fun share => ⟨trivial, .pure ⟨hNext, rfl, trivial, fun hClean => ?_⟩⟩)
  have hBefore := hHas hClean
  simp_all [way, BobState.pieces]

/-- Bob hands over a ciphertext, if that is next. -/
theorem giveCiphertext_meets {index : Nat} {kind : ArtifactKind} {s s' : BobState}
    (hNext : [s, s'] <:+: path) (hAsks : s'.errand.asks? = some (.send kind))
    (hCt : clean → known.cts[index]?.isSome) (hReady : clean → way.ready s' known) :
    Action.Meets clean (way.sound s) known
      (giveCiphertext index kind s' : Action Knowledge ρ (Next BobState)) (way.Leads clean s) :=
  .data (.require hCt fun _ _ => .pure ⟨hNext, hAsks, trivial, hReady⟩)

/-- Bob checks an operation and goes on with the next one, or takes leave. -/
theorem onMain_meets {message : Message} (hTag : message.tag = .send (.partialMain operation))
    (hReady : clean → way.ready (.requestMain operation) known) :
    Action.Meets clean (way.sound (.requestMain operation)) known
      (onMain message : Action Knowledge ρ (Next BobState))
      (way.Leads clean (.requestMain operation)) := by
  have hOperation : message.tag.artifact?.bind ArtifactKind.operation? = some operation := by
    rw [hTag]
    rfl
  have hHas (hClean : clean) : known.Has .context ∧ known.Has .keys ∧ known.Has .results := by
    have hBefore := hReady hClean
    simp_all [way, BobState.pieces]
  refine .bind (Knowledge.operationOf_meets hOperation ⟨trivial, .decode fun main => ?_⟩)
  refine .bind (fuseMain_meets (fun h => (hHas h).1) (fun h => (hHas h).2.1)
    (fun h => (hHas h).2.2) fun fused => ⟨trivial, ?_⟩)
  refine .bind (Knowledge.check_meets (fun h => (hHas h).1) (fun _ _ => id)
    fun verified unrefuted => ⟨trivial, ?_⟩)
  cases operation with
  | add | mult => exact sendLead_meets (by decide) hHas
  | sum => exact .pure ⟨by decide, rfl⟩

end Shares

theorem size_table : (table : StepTable BobState Knowledge ρ).size = path.length := by
  rw [table_eq, StepTable.size_extend_map _ _ (by decide) (by simp)]
  exact Nat.zero_add _

theorem guides : way.Guides (table : StepTable BobState Knowledge ρ) where
  start := rfl
  nodup := by decide
  size := size_table
  steps s _ := by
    refine ⟨_, get?_table s, fun message hTag clean l hReady => ?_⟩
    obtain ⟨tag, payload⟩ := message
    obtain rfl : tag = s.errand.trigger := hTag
    cases s with
    | getMessage =>
        exact .pure ⟨by decide, rfl, trivial, fun _ => by simp [way, BobState.pieces]⟩
    | requestCC =>
        refine .decode fun cc => .change id (.pure ⟨by decide, rfl, trivial, fun _ => ?_⟩)
        simp [way, BobState.pieces, Knowledge.Has]
    | requestRnd1PubKey =>
        refine .decode fun lead => .data (
          .require (fun h => (hReady h).1 .context (by decide)) fun cc _ =>
          .draw fun keys => .change id (.pure ⟨by decide, rfl, trivial, fun hClean => ?_⟩))
        have hBefore := hReady hClean
        simp_all [way, BobState.pieces, Knowledge.Has]
    | requestRnd1EvalMultKey =>
        refine .decode fun mult => .change id (.pure ⟨by decide, rfl, trivial, fun hClean => ?_⟩)
        have hBefore := hReady hClean
        simp_all [way, BobState.pieces, Knowledge.Has]
    | requestRnd1EvalSumKeys =>
        refine .decode fun sum => .change id (.data (
          .require (fun h => (hReady h).1 .jointKey (by decide)) fun jointKey _ =>
          .pure ⟨by decide, rfl, trivial, fun hClean => ?_⟩))
        have hBefore := hReady hClean
        simp_all [way, BobState.pieces, Knowledge.Has]
    | sendRnd2SharedKey =>
        refine .data (.require (fun h => (hReady h).1 .context (by decide)) fun cc _ =>
          .require (fun h => (hReady h).1 .keys (by decide)) fun keys _ =>
          .require (fun h => (hReady h).1 .multRnd1 (by decide)) fun first _ =>
          .engine fun ab => .change id (.pure ⟨by decide, rfl, trivial, fun hClean => ?_⟩))
        have hBefore := hReady hClean
        simp_all [way, BobState.pieces, Knowledge.Has]
    | sendRnd2EvalMultAB =>
        refine .data (.require (fun h => (hReady h).1 .context (by decide)) fun cc _ =>
          .require (fun h => (hReady h).1 .keys (by decide)) fun keys _ =>
          .require (fun h => (hReady h).1 .multAB (by decide)) fun ab _ =>
          .engine fun bab => .change id (.pure ⟨by decide, rfl, trivial, fun hClean => ?_⟩))
        have hBefore := hReady hClean
        simp_all [way, BobState.pieces, Knowledge.Has]
    | sendRnd2EvalMultBAB =>
        refine .data (.require (fun h => (hReady h).1 .context (by decide)) fun cc _ =>
          .require (fun h => (hReady h).1 .keys (by decide)) fun keys _ =>
          .require (fun h => (hReady h).1 .sumRnd1 (by decide)) fun first _ =>
          .engine fun sumKeys => .change id (.pure ⟨by decide, rfl, trivial, fun hClean => ?_⟩))
        have hBefore := hReady hClean
        simp_all [way, BobState.pieces, Knowledge.Has]
    | sendRnd2EvalSumKeysJoin =>
        refine .pure ⟨by decide, rfl, trivial, fun hClean => ?_⟩
        have hBefore := hReady hClean
        simp_all [way, BobState.pieces]
    | requestRnd3EvalMultFinal =>
        refine .decode fun multKey => .change id (.data (
          .require (fun h => (hReady h).1 .context (by decide)) fun cc _ =>
          .require (fun h => (hReady h).1 .jointKey (by decide)) fun jointKey _ =>
          .draw fun ct1 => .draw fun ct2 => .draw fun ct3 =>
          .change id (.pure ⟨by decide, rfl, trivial, fun hClean => ?_⟩)))
        have hBefore := hReady hClean
        simp_all [way, BobState.pieces, Knowledge.Has]
    | sendCt1 =>
        refine giveCiphertext_meets (by decide) rfl (fun hClean => ?_) fun hClean => ?_
        · have hCts := (hReady hClean).2 (by decide)
          simp [hCts]
        · have hBefore := hReady hClean
          simp_all [way, BobState.pieces]
    | sendCt2 =>
        refine giveCiphertext_meets (by decide) rfl (fun hClean => ?_) fun hClean => ?_
        · have hCts := (hReady hClean).2 (by decide)
          simp [hCts]
        · have hBefore := hReady hClean
          simp_all [way, BobState.pieces]
    | sendCt3 =>
        refine .bind (Knowledge.evaluate_meets (fun h => (hReady h).1 .context (by decide))
          (fun h => (hReady h).1 .multKey (by decide)) (fun h => (hReady h).1 .sumKeys (by decide))
          (fun h => (hReady h).2 (by decide)) (fun _ => id) fun results =>
          ⟨trivial, sendLead_meets (by decide) fun hClean => ?_⟩)
        have hBefore := hReady hClean
        simp_all [way, BobState.pieces, Knowledge.Has]
    | sendLead operation =>
        refine .bind (Knowledge.operationOf_meets rfl
          ⟨trivial, .pure ⟨?_, rfl, trivial, fun hClean => ?_⟩⟩)
        · cases operation <;> decide
        · have hBefore := hReady hClean
          simp_all [way, BobState.pieces]
    | requestMain operation => exact onMain_meets rfl hReady

end Bob

end CipherRelay.Threshold
