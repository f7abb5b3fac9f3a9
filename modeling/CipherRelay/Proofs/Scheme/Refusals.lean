import CipherRelay.Proofs.Scheme.Operands
import CipherRelay.Proofs.Scheme.Operations
/-!
What the operations of the scheme come to on any operands in any context. Every operation checks
its operands first, so it refuses with the error of the first that does not fit or computes on
vectors that pass the check; what it answers passes the check again, and where it crashes, the
modulus is to blame.
-/
namespace CipherRelay.Scheme.Context

variable {cc : Context} {ρ α β : Type}

/-- Whether an operation that draws nothing answers what `Q` says, refuses with an error of which
`E` holds, or crashes for fault of the modulus. -/
def Answers (cc : Context) (operation : Outcome α) (Q : α → Prop) (E : EngineError → Prop) : Prop :=
  match operation with
  | .ok value => Q value
  | .error (.error error) => E error
  | .error (.crash crash) => cc.ModulusAccounts crash

namespace Answers

variable {Q : α → Prop} {R : β → Prop} {E : EngineError → Prop} {operation : Outcome α}

/-- The next part of an operation may rely on what the first one answers. -/
theorem bind {f : α → Outcome β} (h : cc.Answers operation Q E)
    (hThen : ∀ value, Q value → cc.Answers (f value) R E) : cc.Answers (operation >>= f) R E := by
  rcases operation with (error | crash) | value
  · exact h
  · exact h
  · exact hThen value h

/-- A check. -/
theorem gate {check : Except EngineError α} {f : α → Outcome β}
    (hRefused : ∀ error, check = .error error → E error)
    (hThen : ∀ value, check = .ok value → cc.Answers (f value) R E) :
    cc.Answers (liftM check >>= f) R E := by
  cases check with
  | ok value => exact hThen value rfl
  | error error => exact hRefused error rfl

theorem compute {operation : Except Crash α} {f : α → Outcome β} (h : cc.Computes operation Q)
    (hThen : ∀ value, Q value → cc.Answers (f value) R E) :
    cc.Answers (liftM operation >>= f) R E := by
  cases operation with
  | ok value => exact hThen value h
  | error crash => exact h

/-- A computation as the last part. -/
theorem last {operation : Except Crash α} (h : cc.Computes operation Q) :
    cc.Answers (liftM operation) Q E := by
  cases operation with
  | ok value => exact h
  | error crash => exact h

theorem mapM {f : α → Outcome β} {list : List α}
    (h : ∀ item ∈ list, cc.Answers (f item) R E) :
    cc.Answers (list.mapM f) (fun results =>
      results.length = list.length ∧ ∀ result ∈ results, R result) E := by
  induction list with
  | nil => exact ⟨rfl, by simp⟩
  | cons first rest ih =>
      rw [List.mapM_cons]
      refine (h first List.mem_cons_self).bind fun result hFirst => ?_
      refine (ih fun item hMem => h item (List.mem_cons_of_mem _ hMem)).bind fun results hRest => ?_
      exact ⟨congrArg (· + 1) hRest.1, List.forall_mem_cons.mpr ⟨hFirst, hRest.2⟩⟩

theorem mono {Q' : α → Prop} {E' : EngineError → Prop} (h : cc.Answers operation Q E)
    (hAnswer : ∀ value, Q value → Q' value) (hRefused : ∀ error, E error → E' error) :
    cc.Answers operation Q' E' := by
  rcases operation with (error | crash) | value
  · exact hRefused error h
  · exact h
  · exact hAnswer value h

end Answers

/-- Whether an operation that draws does so. -/
def DrawAnswers (cc : Context) (operation : Draw ρ EngineError α) (Q : α → Prop)
    (E : EngineError → Prop) : Prop :=
  ∀ source, match operation source with
    | .ok value _ => Q value
    | .error (.error error) _ => E error
    | .error (.crash crash) _ => cc.ModulusAccounts crash

namespace DrawAnswers

variable {Q : α → Prop} {R : β → Prop} {E : EngineError → Prop}

theorem pure {value : α} (h : Q value) :
    cc.DrawAnswers (Pure.pure value : Draw ρ EngineError α) Q E :=
  fun _ => h

theorem bind {operation : Draw ρ EngineError α} {f : α → Draw ρ EngineError β}
    (h : cc.DrawAnswers operation Q E)
    (hThen : ∀ value, Q value → cc.DrawAnswers (f value) R E) :
    cc.DrawAnswers (operation >>= f) R E := by
  intro source
  have hHere := h source
  cases hResult : operation source with
  | ok value after =>
      rw [hResult] at hHere
      rw [Draw.bind_eq hResult]
      exact hThen value hHere after
  | error failure after =>
      rw [hResult] at hHere
      rw [Draw.bind_eq_error hResult]
      cases failure <;> exact hHere

theorem mono {Q' : α → Prop} {E' : EngineError → Prop} {operation : Draw ρ EngineError α}
    (h : cc.DrawAnswers operation Q E) (hAnswer : ∀ value, Q value → Q' value)
    (hRefused : ∀ error, E error → E' error) : cc.DrawAnswers operation Q' E' := by
  intro source
  have hHere := h source
  revert hHere
  rcases operation source with ⟨value, after⟩ | ⟨error | crash, after⟩
  · exact hAnswer value
  · exact hRefused error
  · exact id

/-- A check draws nothing. -/
theorem gate {check : Except EngineError α} {f : α → Draw ρ EngineError β}
    (hRefused : ∀ error, check = .error error → E error)
    (hThen : ∀ value, check = .ok value → cc.DrawAnswers (f value) R E) :
    cc.DrawAnswers (liftM check >>= f) R E := by
  cases check with
  | ok value => exact hThen value rfl
  | error error => exact fun _ => hRefused error rfl

theorem compute {operation : Except Crash α} {f : α → Draw ρ EngineError β}
    (h : cc.Computes operation Q) (hThen : ∀ value, Q value → cc.DrawAnswers (f value) R E) :
    cc.DrawAnswers (liftM operation >>= f) R E := by
  cases operation with
  | ok value => exact hThen value h
  | error crash => exact fun _ => h

/-- A part that draws nothing. -/
theorem outcome {operation : Outcome α} {f : α → Draw ρ EngineError β}
    (h : cc.Answers operation Q E) (hThen : ∀ value, Q value → cc.DrawAnswers (f value) R E) :
    cc.DrawAnswers (liftM operation >>= f) R E := by
  rcases operation with (error | crash) | value
  · exact fun _ => h
  · exact fun _ => h
  · exact hThen value h

theorem mapM {f : α → Draw ρ EngineError β} {list : List α}
    (h : ∀ item ∈ list, cc.DrawAnswers (f item) R E) :
    cc.DrawAnswers (list.mapM f) (fun results =>
      results.length = list.length ∧ ∀ result ∈ results, R result) E := by
  induction list with
  | nil => exact pure ⟨rfl, by simp⟩
  | cons first rest ih =>
      rw [List.mapM_cons]
      refine (h first List.mem_cons_self).bind fun result hFirst => ?_
      refine (ih fun item hMem => h item (List.mem_cons_of_mem _ hMem)).bind fun results hRest => ?_
      exact pure ⟨congrArg (· + 1) hRest.1, List.forall_mem_cons.mpr ⟨hFirst, hRest.2⟩⟩

end DrawAnswers

section Checks

/-- Two checks one after the other. -/
theorem checks_eq_ok_iff {v w : Residues} :
    (do cc.check v; cc.check w : Except EngineError Unit) = .ok () ↔
      cc.Passes v ∧ cc.Passes w := by
  unfold Passes
  cases cc.check v with
  | ok value => exact ⟨fun h => ⟨rfl, h⟩, fun h => h.2⟩
  | error error => simp [bind, Except.bind]

/-- The check of a public key is that of both its vectors. -/
theorem checkPublic_iff {key : PublicKey} :
    cc.checkPublic key = .ok () ↔ cc.Passes key.p0 ∧ cc.Passes key.p1 :=
  checks_eq_ok_iff

theorem checkKey_iff {key : SwitchKey} :
    cc.checkKey key = .ok () ↔ cc.Passes key.alpha ∧ cc.Passes key.beta :=
  checks_eq_ok_iff

theorem checkCiphertext_iff {ct : Ciphertext} :
    cc.checkCiphertext ct = .ok () ↔ cc.Passes ct.c0 ∧ cc.Passes ct.c1 :=
  checks_eq_ok_iff

end Checks

/-- Whether an operation answers only where its operands fit, and refuses with the error of the
first one that does not. -/
def Guards (cc : Context) (operands : List Operand) (operation : Outcome α) (Q : α → Prop) : Prop :=
  cc.Answers operation (fun value => (∀ operand ∈ operands, cc.Fits operand) ∧ Q value)
    (cc.FirstRefused operands)

namespace Guards

variable {front operands rest : List Operand} {operation : Outcome α} {Q : α → Prop} {R : β → Prop}
  {v w : Residues}

/-- Nothing is left to be checked. -/
theorem nil (h : cc.Answers operation Q (cc.FirstRefused [])) : cc.Guards [] operation Q :=
  h.mono (fun _ hValue => ⟨by simp, hValue⟩) fun _ => id

/-- The operands of the first part stand in front of those of the next one. -/
theorem bind {f : α → Outcome β} (h : cc.Guards front operation Q)
    (hThen : ∀ value, Q value → cc.Guards rest (f value) R) :
    cc.Guards (front ++ rest) (operation >>= f) R := by
  refine Answers.bind (Answers.mono h (fun _ => id) fun _ => .left) fun value hValue => ?_
  refine Answers.mono (hThen value hValue.2) (fun _ hResult => ⟨?_, hResult.2⟩) fun _ =>
    .right hValue.1
  exact List.forall_mem_append.mpr ⟨hValue.1, hResult.1⟩

/-- The check of a vector is the rule from which those of all operands follow. -/
theorem vector (v : Residues) :
    cc.Guards [.vector v] (liftM (cc.check v)) fun _ => cc.Passes v := by
  cases hCheck : cc.check v with
  | ok => exact ⟨by simpa [Fits] using passes_iff.mp hCheck, hCheck⟩
  | error error => exact .head (refused_of_check hCheck)

theorem check {f : Unit → Outcome β} (hThen : cc.Passes v → cc.Guards rest (f ()) R) :
    cc.Guards (.vector v :: rest) (liftM (cc.check v) >>= f) R :=
  (vector v).bind fun _ => hThen

/-- Two checks one after the other. -/
theorem pair {f : Unit → Outcome β}
    (hThen : cc.Passes v → cc.Passes w → cc.Guards rest (f ()) R) :
    cc.Guards (.vector v :: .vector w :: rest)
      (liftM (do cc.check v; cc.check w : Except EngineError Unit) >>= f) R := by
  have hTwice : (liftM (do cc.check v; cc.check w : Except EngineError Unit) >>= f) =
      (do liftM (cc.check v); liftM (cc.check w) >>= f) := by
    cases cc.check v <;> rfl
  rw [hTwice]
  exact check fun hv => check fun hw => hThen hv hw

/-- The key of a map for one rotation. -/
theorem requireKey {keys : RotationKeys} {rotation : UInt64} {f : SwitchKey → Outcome β}
    (hThen : ∀ key, cc.Passes key.alpha → cc.Passes key.beta → cc.Answers (f key) R
      (cc.FirstRefused [])) :
    cc.Guards (keyOperands keys rotation) (liftM (cc.requireKey keys rotation) >>= f) R := by
  unfold keyOperands Context.requireKey
  cases keys.get? rotation with
  | none => exact .head .absent
  | some key =>
      have hAfter : (liftM (do cc.checkKey key; return key : Except EngineError SwitchKey) >>= f) =
          (liftM (cc.checkKey key) >>= fun _ => f key) := by
        cases cc.checkKey key <;> rfl
      change cc.Guards _ (liftM (do cc.checkKey key; return key : Except EngineError _) >>= f) R
      rw [hAfter]
      exact pair fun hAlpha hBeta => nil (hThen key hAlpha hBeta)

variable {list : List α} {needs : α → List Operand}

/-- An operation on each item of a list, with the operands that each of them needs. -/
theorem mapM {f : α → Outcome β} (h : ∀ item, cc.Guards (needs item) (f item) R) :
    cc.Guards (list.flatMap needs) (list.mapM f) fun results => ∀ result ∈ results, R result := by
  induction list with
  | nil => exact nil (show cc.Answers (pure []) _ _ from fun _ hMem => by simp at hMem)
  | cons first rest ih =>
      rw [List.flatMap_cons, List.mapM_cons]
      refine (h first).bind fun result hFirst => ?_
      rw [← List.append_nil (rest.flatMap needs)]
      exact ih.bind fun results hRest => nil (List.forall_mem_cons.mpr ⟨hFirst, hRest⟩)

/-- An operation along a list, with the operands that each step needs. -/
theorem foldlM {f : β → α → Outcome β} {start : β} (hStart : R start)
    (h : ∀ value item, R value → cc.Guards (needs item) (f value item) R) :
    cc.Guards (list.flatMap needs) (list.foldlM f start) R := by
  induction list generalizing start with
  | nil => exact nil hStart
  | cons first rest ih =>
      rw [List.flatMap_cons, List.foldlM_cons]
      exact (h start first hStart).bind fun next hNext => ih hNext

end Guards

/-- Whether an operation that draws does so. -/
def DrawGuards (cc : Context) (operands : List Operand) (operation : Draw ρ EngineError α)
    (Q : α → Prop) : Prop :=
  cc.DrawAnswers operation (fun value => (∀ operand ∈ operands, cc.Fits operand) ∧ Q value)
    (cc.FirstRefused operands)

namespace DrawGuards

variable {operands rest : List Operand} {Q : α → Prop} {R : β → Prop} {v w : Residues}

theorem nil {operation : Draw ρ EngineError α}
    (h : cc.DrawAnswers operation Q (cc.FirstRefused [])) : cc.DrawGuards [] operation Q :=
  h.mono (fun _ hValue => ⟨by simp, hValue⟩) fun _ => id

theorem check {f : Unit → Draw ρ EngineError β}
    (hThen : cc.Passes v → cc.DrawGuards rest (f ()) R) :
    cc.DrawGuards (.vector v :: rest) (liftM (cc.check v) >>= f) R := by
  refine .gate (fun error hError => .head (refused_of_check hError)) fun _ hv => ?_
  have hFits := passes_iff.mp hv
  refine (hThen hv).mono (fun _ hResult => ⟨?_, hResult.2⟩) fun _ => .tail hFits
  exact List.forall_mem_cons.mpr ⟨hFits, hResult.1⟩

theorem pair {f : Unit → Draw ρ EngineError β}
    (hThen : cc.Passes v → cc.Passes w → cc.DrawGuards rest (f ()) R) :
    cc.DrawGuards (.vector v :: .vector w :: rest)
      (liftM (do cc.check v; cc.check w : Except EngineError Unit) >>= f) R := by
  have hTwice : (liftM (do cc.check v; cc.check w : Except EngineError Unit) >>= f) =
      (do liftM (cc.check v); liftM (cc.check w) >>= f) := by
    cases cc.check v <;> rfl
  rw [hTwice]
  exact check fun hv => check fun hw => hThen hv hw

/-- A part that draws nothing looks at the last operands. -/
theorem outcome {operation : Outcome α} {f : α → Draw ρ EngineError β}
    (h : cc.Guards operands operation Q)
    (hThen : ∀ value, Q value → cc.DrawAnswers (f value) R (cc.FirstRefused [])) :
    cc.DrawGuards operands (liftM operation >>= f) R := by
  refine DrawAnswers.outcome h fun value hValue => ?_
  exact (hThen value hValue.2).mono (fun _ hResult => ⟨hValue.1, hResult⟩) fun _ hError =>
    hError.not_nil.elim

end DrawGuards

section Operations

variable [RandomSource ρ] {E : EngineError → Prop}

/-- Numbers below a bound, one for each slot; none can be drawn where the bound is zero. -/
theorem vector_answers (hRoom : cc.HasRoom) {bound : UInt64}
    (hBlame : bound = 0 → cc.plaintextModulus = 0) :
    cc.DrawAnswers (Draw.vector cc.ringDimension.toNat bound : Draw ρ EngineError (List UInt64))
      (fun list => list.length = cc.ringDimension.toNat ∧ ∀ x ∈ list, x < bound) E := by
  have hBelow : cc.DrawAnswers (Draw.below bound : Draw ρ EngineError UInt64) (· < bound) E := by
    intro source
    by_cases hZero : bound = 0
    · simp only [Draw.below, hZero, if_true]
      exact hBlame hZero
    · simp only [Draw.below, hZero, if_false]
      exact UInt64.mod_lt _ (UInt64.pos_iff_ne_zero.mpr hZero)
  have hAll : cc.DrawAnswers
      ((List.replicate cc.ringDimension.toNat bound).mapM Draw.below : Draw ρ _ _) _ E :=
    .mapM fun item hMem => by rwa [List.eq_of_mem_replicate hMem]
  rw [List.length_replicate] at hAll
  rw [Draw.vector, Word.reserve_eq_ok hRoom]
  exact hAll

/-- What is drawn passes the check. -/
theorem sample_answers (hRoom : cc.HasRoom) :
    cc.DrawAnswers (cc.sample : Draw ρ EngineError Residues) cc.Passes E :=
  (vector_answers hRoom id).mono (fun _ hv => check_eq_ok_iff.mpr ⟨⟨hRoom, hv.1⟩, hv.2⟩)
    fun _ => id

/-- Both halves of a key pair pass the checks, and no error can be had. -/
theorem keyGen_answers (hRoom : cc.HasRoom) :
    cc.DrawAnswers (cc.keyGen : Draw ρ EngineError KeyPair)
      (fun keys => cc.checkPublic keys.publicKey = .ok () ∧ cc.Passes keys.privateKey.s) E := by
  refine (sample_answers hRoom).bind fun s hs => (sample_answers hRoom).bind fun u hu => ?_
  refine .compute (computes_mul hu hs) fun masked hMasked => .compute (computes_neg hMasked) ?_
  intro p0 hp0
  exact .pure ⟨checkPublic_iff.mpr ⟨hp0, hu⟩, hs⟩

/-- A joint key looks at the lead key only. -/
theorem jointKeyGen_guards (lead : PublicKey) :
    cc.DrawGuards [.vector lead.p0, .vector lead.p1]
      (cc.jointKeyGen lead : Draw ρ EngineError KeyPair)
      fun keys => cc.checkPublic keys.publicKey = .ok () ∧ cc.Passes keys.privateKey.s := by
  refine .pair fun hp0 hp1 => .nil ((sample_answers hp0.hasRoom).bind fun s hs => ?_)
  refine .compute (computes_mul hp1 hs) fun own hOwn => .compute (computes_sub hp0 hOwn) ?_
  intro p0 hJoint
  exact .pure ⟨checkPublic_iff.mpr ⟨hJoint, hp1⟩, hs⟩

/-- A re-encryption key looks at the secret first and then at the key of its target. -/
theorem reKeyGen_guards (source : PrivateKey) (target : PublicKey) :
    cc.DrawGuards [.vector source.s, .vector target.p0, .vector target.p1]
      (cc.reKeyGen source target : Draw ρ EngineError SwitchKey)
      fun key => cc.checkKey key = .ok () := by
  refine .check fun hs => .pair fun hp0 hp1 => .nil ?_
  refine (sample_answers hs.hasRoom).bind fun r hr => ?_
  refine .compute (computes_mul hr hp0) fun masked hMasked => ?_
  refine .compute (computes_add hs.tidy hMasked.tidy) fun alpha hAlpha => ?_
  exact .compute (computes_mul hr hp1) fun beta hBeta => .pure (checkKey_iff.mpr ⟨hAlpha, hBeta⟩)

theorem productKey_answers {key : PrivateKey} (hKey : cc.Passes key.s) :
    cc.DrawAnswers (cc.productKey key : Draw ρ EngineError SwitchKey)
      (fun product => cc.checkKey product = .ok ()) E := by
  refine (sample_answers hKey.hasRoom).bind fun beta hBeta => ?_
  refine .compute (computes_mul hKey hKey) fun square hSquare => ?_
  refine .compute (computes_mul hBeta hKey) fun masked hMasked => ?_
  exact .compute (computes_sub hSquare hMasked) fun alpha hAlpha =>
    .pure (checkKey_iff.mpr ⟨hAlpha, hBeta⟩)

/-- The keys of a map are among those of the list that it is made of. -/
theorem forall_mem_ofList {list : List (UInt64 × SwitchKey)} {P : UInt64 × SwitchKey → Prop}
    (h : ∀ entry ∈ list, P entry) : ∀ entry ∈ (RotationKeys.ofList list).entries, P entry := by
  have hFold : ∀ keys : RotationKeys, (∀ entry ∈ keys.entries, P entry) →
      ∀ entry ∈ (list.foldl (fun keys entry => keys.insert entry.1 entry.2) keys).entries,
        P entry := by
    induction list with
    | nil => exact fun _ hKeys => hKeys
    | cons first rest ih =>
        obtain ⟨hFirst, hRest⟩ := List.forall_mem_cons.mp h
        refine fun keys hKeys => ih hRest _ fun entry hMem => ?_
        rcases RotationKeys.mem_place hMem with rfl | hMem
        · exact hFirst
        · exact hKeys entry hMem
  exact hFold .empty (by simp [RotationKeys.empty])

/-- Each key for a rotation passes the check. -/
theorem sumKeys_answers {key : PrivateKey} (hKey : cc.Passes key.s) :
    cc.DrawAnswers (cc.sumKeys key : Draw ρ EngineError RotationKeys)
      (fun keys => ∀ entry ∈ keys.entries, cc.checkKey entry.2 = .ok ()) E := by
  refine (DrawAnswers.mapM (R := fun entry => cc.checkKey entry.2 = .ok ()) fun rotation _ =>
    ?_).bind fun entries hEntries => .pure (forall_mem_ofList hEntries.2)
  refine (sample_answers hKey.hasRoom).bind fun beta hBeta => ?_
  refine .compute (computes_mul hBeta hKey) fun masked hMasked => ?_
  exact .compute (computes_sub (hKey.rotateLeft _) hMasked) fun alpha hAlpha =>
    .pure (checkKey_iff.mpr ⟨hAlpha, hBeta⟩)

theorem productKeyAB_guards (key : PrivateKey) (first : SwitchKey) :
    cc.Guards [.vector key.s, .vector first.alpha, .vector first.beta] (cc.productKeyAB key first)
      fun ab => cc.checkKey ab = .ok () := by
  refine .check fun hKey => .pair fun hAlpha hBeta => .nil ?_
  refine .compute (computes_mul hKey hKey) fun square hSquare => ?_
  refine .compute (computes_mul hBeta hKey) fun masked hMasked => ?_
  refine .compute (computes_sub hSquare hMasked) fun own hOwn => ?_
  exact .compute (computes_add hAlpha.tidy hOwn.tidy) fun alpha hSum =>
    checkKey_iff.mpr ⟨hSum, hBeta⟩

/-- Zeros pass the check where some vector does. -/
theorem computes_zeros {v : Residues} (hv : cc.Passes v) : cc.Computes cc.zeros cc.Passes := by
  obtain ⟨hSpans, hBelow⟩ := passes_iff.mp hv
  rw [Context.zeros, Word.reserve_eq_ok hv.hasRoom]
  refine passes_iff.mpr ⟨⟨hv.hasRoom, List.length_replicate⟩, fun x hMem => ?_⟩
  obtain ⟨hSome, rfl⟩ := List.mem_replicate.mp hMem
  obtain ⟨y, hy⟩ := List.exists_mem_of_length_pos (l := v) (by have := hSpans.2; omega)
  exact UInt64.lt_of_le_of_lt UInt64.zero_le (hBelow y hy)

theorem productKeyBAB_guards (key : PrivateKey) (ab : SwitchKey) :
    cc.Guards [.vector key.s, .vector ab.alpha, .vector ab.beta] (cc.productKeyBAB key ab)
      fun bab => cc.checkKey bab = .ok () := by
  refine .check fun hKey => .pair fun _ _ => .nil ?_
  refine .compute (computes_zeros hKey) fun alpha hAlpha => ?_
  exact .compute (computes_add hKey.tidy hKey.tidy) fun beta hBeta =>
    checkKey_iff.mpr ⟨hAlpha, hBeta⟩

theorem productKeyFinal_guards (key : PrivateKey) (ab bab : SwitchKey) :
    cc.Guards [.vector key.s, .vector ab.alpha, .vector ab.beta, .vector bab.alpha,
      .vector bab.beta] (cc.productKeyFinal key ab bab)
      fun product => cc.checkKey product = .ok () := by
  refine .check fun hKey => .pair fun hAlpha hOwn => .pair fun hOther hBeta => .nil ?_
  refine .compute (computes_mul hBeta hKey) fun mixed hMixed => ?_
  refine .compute (computes_add hMixed.tidy hOther.tidy) fun cross hCross => ?_
  exact .compute (computes_add hAlpha.tidy hCross.tidy) fun alpha hSum =>
    checkKey_iff.mpr ⟨hSum, hOwn⟩

/-- The keys of the first party are looked at rotation by rotation, after the own secret. -/
theorem sumKeysJoin_guards (key : PrivateKey) (first : RotationKeys) :
    cc.Guards (.vector key.s :: cc.sumOperands first) (cc.sumKeysJoin key first)
      fun keys => ∀ entry ∈ keys.entries, cc.checkKey entry.2 = .ok () := by
  refine .check fun hKey => ?_
  rw [← List.append_nil (cc.sumOperands first)]
  refine (Guards.mapM (R := fun entry : UInt64 × SwitchKey => cc.checkKey entry.2 = .ok ())
    fun rotation => ?_).bind fun entries hEntries => .nil (forall_mem_ofList hEntries)
  refine .requireKey fun known hAlpha hBeta => ?_
  refine .compute (computes_mul hBeta hKey) fun masked hMasked => ?_
  refine .compute (computes_sub (Passes.rotateLeft hKey _) hMasked) fun own hOwn => ?_
  exact .compute (computes_add hAlpha.tidy hOwn.tidy) fun alpha hSum =>
    checkKey_iff.mpr ⟨hSum, hBeta⟩

/-- Values that have no slot each are refused. -/
theorem encodeValues_guards (hRoom : cc.HasRoom) (values : List Int64) :
    cc.Guards [.values values] (cc.encodeValues values) cc.Tidy := by
  rw [encodeValues, Word.reserve_eq_ok hRoom]
  split
  case isTrue hMany => exact .head (.count hMany)
  case isFalse hFew =>
    refine (Answers.mapM (R := fun x => cc.plaintextModulus.toNat < 2 ^ 63 →
      x < cc.plaintextModulus) fun v _ => ?_).bind fun residues hAll => ⟨?_, ?_⟩
    · exact .compute (computes_euclidean v) fun _ h => h
    · simpa [Fits] using Nat.not_lt.mp hFew
    constructor
    case spans =>
      refine ⟨hRoom, ?_⟩
      rw [List.length_append, List.length_replicate, hAll.1]
      omega
    case most =>
      intro hModulus x hMem
      rcases List.mem_append.mp hMem with hValue | hZero
      · exact UInt64.le_of_lt (hAll.2 x hValue hModulus)
      · rw [List.eq_of_mem_replicate hZero]
        exact UInt64.zero_le

/-- The key is looked at before the values. -/
theorem encrypt_guards (key : PublicKey) (values : List Int64) :
    cc.DrawGuards [.vector key.p0, .vector key.p1, .values values]
      (cc.encrypt key values : Draw ρ EngineError Ciphertext)
      fun ct => cc.checkCiphertext ct = .ok () := by
  refine .pair fun hp0 hp1 => .outcome (encodeValues_guards hp0.hasRoom values) fun m hm => ?_
  refine (sample_answers hp0.hasRoom).bind fun r hr => ?_
  refine .compute (computes_mul hr hp0) fun masked hMasked => ?_
  refine .compute (computes_add hm hMasked.tidy) fun c0 hc0 => ?_
  exact .compute (computes_mul hr hp1) fun c1 hc1 => .pure (checkCiphertext_iff.mpr ⟨hc0, hc1⟩)

/-- Under a key that passes the check, encryption refuses only values that have no slot each. -/
theorem encrypt_answers {key : PublicKey} (hKey : cc.checkPublic key = .ok ())
    (values : List Int64) :
    cc.DrawAnswers (cc.encrypt key values : Draw ρ EngineError Ciphertext) (fun _ => True)
      fun error => cc.ringDimension.toNat < values.length ∧
        error = .dimensionMismatch cc.ringDimension values.length.toUInt64 := by
  obtain ⟨hp0, hp1⟩ := checkPublic_iff.mp hKey
  refine DrawAnswers.mono (encrypt_guards key values) (fun _ _ => trivial) fun error hRefused => ?_
  have hValues := (hRefused.of_cons (passes_iff.mp hp0)).of_cons (passes_iff.mp hp1)
  cases hValues.of_singleton with
  | count hMany => exact ⟨hMany, rfl⟩

/-- The secret is looked at before the ciphertext, and the values stand around zero. -/
theorem decrypt_guards (key : PrivateKey) (ct : Ciphertext) :
    cc.Guards [.vector key.s, .vector ct.c0, .vector ct.c1] (cc.decrypt key ct)
      fun values => cc.plaintextModulus.toNat < 2 ^ 63 → cc.Balanced values := by
  refine .check fun hKey => .pair fun hc0 hc1 => .nil ?_
  refine .compute (computes_mul hc1 hKey) fun masked hMasked => ?_
  exact .compute (computes_add hc0.tidy hMasked.tidy) fun plain hPlain =>
    .last (computes_center hPlain)

/-- A switch to another key. -/
theorem computes_switch {c0 c1 : Residues} {key : SwitchKey} (hc0 : cc.Passes c0)
    (hc1 : cc.Passes c1) (hAlpha : cc.Passes key.alpha) (hBeta : cc.Passes key.beta) :
    cc.Computes (cc.switch c0 c1 key) fun ct => cc.Passes ct.c0 ∧ cc.Passes ct.c1 := by
  refine (computes_mul hc1 hAlpha).bind fun switched hSwitched => ?_
  refine (computes_add hc0.tidy hSwitched.tidy).bind fun d0 hd0 => ?_
  exact (computes_mul hc1 hBeta).bind fun d1 hd1 => ⟨hd0, hd1⟩

/-- The ciphertext is looked at before the key. -/
theorem reEncrypt_guards (ct : Ciphertext) (key : SwitchKey) :
    cc.Guards [.vector ct.c0, .vector ct.c1, .vector key.alpha, .vector key.beta]
      (cc.reEncrypt ct key) fun switched => cc.checkCiphertext switched = .ok () := by
  refine .pair fun hc0 hc1 => .pair fun hAlpha hBeta => .nil (.last ?_)
  exact (computes_switch hc0 hc1 hAlpha hBeta).mono fun _ => checkCiphertext_iff.mpr

theorem evalAdd_guards (a b : Ciphertext) :
    cc.Guards [.vector a.c0, .vector a.c1, .vector b.c0, .vector b.c1] (cc.evalAdd a b)
      fun ct => cc.checkCiphertext ct = .ok () := by
  refine .pair fun ha0 ha1 => .pair fun hb0 hb1 => .nil ?_
  refine .compute (computes_add ha0.tidy hb0.tidy) fun c0 hc0 => ?_
  refine .compute (computes_add ha1.tidy hb1.tidy) fun c1 hc1 => ?_
  exact checkCiphertext_iff.mpr ⟨hc0, hc1⟩

/-- Both ciphertexts are looked at before the key. -/
theorem evalMult_guards (a b : Ciphertext) (key : SwitchKey) :
    cc.Guards [.vector a.c0, .vector a.c1, .vector b.c0, .vector b.c1, .vector key.alpha,
      .vector key.beta] (cc.evalMult a b key) fun ct => cc.checkCiphertext ct = .ok () := by
  refine .pair fun ha0 ha1 => .pair fun hb0 hb1 => .pair fun hAlpha hBeta => .nil ?_
  refine .compute (computes_mul ha0 hb0) fun e0 he0 => ?_
  refine .compute (computes_mul ha0 hb1) fun left hLeft => ?_
  refine .compute (computes_mul ha1 hb0) fun right hRight => ?_
  refine .compute (computes_add hLeft.tidy hRight.tidy) fun e1 he1 => ?_
  refine .compute (computes_mul ha1 hb1) fun e2 he2 => ?_
  refine .compute (computes_mul he2 hAlpha) fun folded0 hFolded0 => ?_
  refine .compute (computes_add he0.tidy hFolded0.tidy) fun c0 hc0 => ?_
  refine .compute (computes_mul he2 hBeta) fun folded1 hFolded1 => ?_
  refine .compute (computes_add he1.tidy hFolded1.tidy) fun c1 hc1 => ?_
  exact checkCiphertext_iff.mpr ⟨hc0, hc1⟩

/-- Keys are looked at only for the rotations of the context, in their order. -/
theorem evalSum_guards (ct : Ciphertext) (keys : RotationKeys) :
    cc.Guards (.vector ct.c0 :: .vector ct.c1 :: cc.sumOperands keys) (cc.evalSum ct keys)
      fun sum => cc.checkCiphertext sum = .ok () := by
  refine .pair fun hc0 hc1 => Guards.foldlM (checkCiphertext_iff.mpr ⟨hc0, hc1⟩) ?_
  intro sum rotation hSum
  obtain ⟨hc0, hc1⟩ := checkCiphertext_iff.mp hSum
  refine .requireKey fun key hAlpha hBeta => ?_
  refine .compute (computes_switch (hc0.rotateLeft _) (hc1.rotateLeft _) hAlpha hBeta)
    fun rotated hRotated => ?_
  refine .compute (computes_add hc0.tidy hRotated.1.tidy) fun d0 hd0 => ?_
  refine .compute (computes_add hc1.tidy hRotated.2.tidy) fun d1 hd1 => ?_
  exact checkCiphertext_iff.mpr ⟨hd0, hd1⟩

theorem leadShare_guards (key : PrivateKey) (ct : Ciphertext) :
    cc.Guards [.vector key.s, .vector ct.c0, .vector ct.c1] (cc.leadShare key ct)
      fun share => cc.Passes share.share := by
  refine .check fun hKey => .pair fun hc0 hc1 => .nil ?_
  refine .compute (computes_mul hc1 hKey) fun masked hMasked => ?_
  exact .compute (computes_add hc0.tidy hMasked.tidy) fun _ hShare => hShare

/-- A lead share is refused only where the key or the ciphertext does not pass the check. -/
theorem leadShare_answers (key : PrivateKey) (ct : Ciphertext) :
    cc.Answers (cc.leadShare key ct) (fun _ => True) fun _ =>
      ¬(cc.Passes key.s ∧ cc.checkCiphertext ct = .ok ()) := by
  refine Answers.mono (leadShare_guards key ct) (fun _ _ => trivial) fun error hRefused hPass => ?_
  obtain ⟨hc0, hc1⟩ := checkCiphertext_iff.mp hPass.2
  refine hRefused.not_fits ?_
  simp [Fits, passes_iff.mp hPass.1, passes_iff.mp hc0, passes_iff.mp hc1]

theorem mainShare_guards (key : PrivateKey) (ct : Ciphertext) :
    cc.Guards [.vector key.s, .vector ct.c0, .vector ct.c1] (cc.mainShare key ct)
      fun share => cc.Passes share.share := by
  refine .check fun hKey => .pair fun _ hc1 => .nil ?_
  exact .compute (computes_mul hc1 hKey) fun _ hShare => hShare

/-- The lead share is looked at before the main share, and the values stand around zero. -/
theorem fuse_guards (lead main : Share) :
    cc.Guards [.vector lead.share, .vector main.share] (cc.fuse lead main)
      fun values => cc.plaintextModulus.toNat < 2 ^ 63 → cc.Balanced values := by
  refine .check fun hLead => .check fun hMain => .nil ?_
  refine .compute (computes_add hLead.tidy hMain.tidy) fun plain hPlain => ?_
  exact .last (computes_center hPlain)

end Operations

end CipherRelay.Scheme.Context
