import CipherRelay.Proofs.Scheme.Limits
import CipherRelay.Scheme.Evaluation
/-!
Operands of the operations. An operation takes vectors, a list of values to be encoded, and the keys
of a map. Each of these fits or has one thing wrong with it, and of several operands the first that
does not fit settles the error. Nothing here speaks of the checks that are run: the operations are
held against it.
-/
namespace CipherRelay.Scheme

/-- An operand, or a key that is not there. -/
inductive Operand
  | vector (entries : Residues)
  | values (values : List Int64)
  /-- A map has no key for a rotation that it is asked for. -/
  | absent (rotation : UInt64)

namespace Context

variable {cc : Context}

/-- Whether a vector has one residue for each slot. -/
def Reduced (cc : Context) (v : Residues) : Prop :=
  cc.Spans v ∧ ∀ x ∈ v, x < cc.plaintextModulus

/-- A vector passes the check exactly when it is reduced. -/
theorem passes_iff {v : Residues} : cc.Passes v ↔ cc.Reduced v :=
  check_eq_ok_iff

/-- Whether an operand can be computed with. -/
def Fits (cc : Context) : Operand → Prop
  | .vector v => cc.Reduced v
  | .values values => values.length ≤ cc.ringDimension.toNat
  | .absent _ => False

/-- What is wrong with an operand. -/
inductive Refused (cc : Context) : Operand → EngineError → Prop
  | length {v : Residues} (h : ¬cc.Spans v) :
      Refused cc (.vector v) (.dimensionMismatch cc.ringDimension v.length.toUInt64)
  /-- The length is right; the error names the first entry that is too large. -/
  | range {front rest : Residues} {x : UInt64}
      (hSpans : cc.Spans (front ++ x :: rest))
      (hFront : ∀ y ∈ front, y < cc.plaintextModulus) (h : cc.plaintextModulus ≤ x) :
      Refused cc (.vector (front ++ x :: rest)) (.residueOutOfRange x cc.plaintextModulus)
  | count {values : List Int64} (h : cc.ringDimension.toNat < values.length) :
      Refused cc (.values values) (.dimensionMismatch cc.ringDimension values.length.toUInt64)
  | absent {rotation : UInt64} : Refused cc (.absent rotation) (.missingSumKey rotation)

/-- Whether an error is that of the first operand that does not fit. -/
def FirstRefused (cc : Context) (operands : List Operand) (error : EngineError) : Prop :=
  ∃ front operand rest, operands = front ++ operand :: rest ∧ (∀ fits ∈ front, cc.Fits fits) ∧
    cc.Refused operand error

/-- The operands that a map brings in for one rotation. -/
def keyOperands (keys : RotationKeys) (rotation : UInt64) : List Operand :=
  match keys.get? rotation with
  | none => [.absent rotation]
  | some key => [.vector key.alpha, .vector key.beta]

/-- The operands that a map brings in for a total sum. Its other entries are none. -/
def sumOperands (cc : Context) (keys : RotationKeys) : List Operand :=
  cc.rotations.flatMap (keyOperands keys)

/-- An operand that is refused does not fit. -/
theorem Refused.not_fits {operand : Operand} {error : EngineError} (h : cc.Refused operand error) :
    ¬cc.Fits operand := by
  cases h with
  | length h => exact fun hFits => h hFits.1
  | range hSpans hFront h =>
      exact fun hFits => UInt64.not_lt.mpr h (hFits.2 _ (by simp))
  | count h => exact Nat.not_le.mpr h
  | absent => exact id

/-- The check says what is wrong with a vector. -/
theorem refused_of_check {v : Residues} {error : EngineError} (h : cc.check v = .error error) :
    cc.Refused (.vector v) error := by
  unfold check at h
  split at h
  case isTrue hShort =>
    cases h
    exact .length hShort
  case isFalse hSpans =>
    split at h
    case h_1 x hFind =>
      cases h
      obtain ⟨hLarge, front, rest, rfl, hFront⟩ := List.find?_eq_some_iff_append.mp hFind
      refine .range (Classical.not_not.mp hSpans) (fun y hMem => ?_) (by simpa using hLarge)
      simpa using hFront y hMem
    case h_2 => cases h

namespace FirstRefused

variable {operand : Operand} {front operands rest : List Operand} {error : EngineError}

theorem head (h : cc.Refused operand error) : cc.FirstRefused (operand :: rest) error :=
  ⟨[], operand, rest, rfl, by simp, h⟩

theorem left (h : cc.FirstRefused front error) : cc.FirstRefused (front ++ rest) error := by
  obtain ⟨before, operand, after, rfl, hBefore, hRefused⟩ := h
  exact ⟨before, operand, after ++ rest, by simp, hBefore, hRefused⟩

/-- Operands that fit leave the error to those behind them. -/
theorem right (hFront : ∀ operand ∈ front, cc.Fits operand) (h : cc.FirstRefused rest error) :
    cc.FirstRefused (front ++ rest) error := by
  obtain ⟨before, operand, after, rfl, hBefore, hRefused⟩ := h
  refine ⟨front ++ before, operand, after, (List.append_assoc ..).symm, fun fits hMem => ?_,
    hRefused⟩
  rcases List.mem_append.mp hMem with hMem | hMem
  · exact hFront fits hMem
  · exact hBefore fits hMem

theorem tail (hFits : cc.Fits operand) (h : cc.FirstRefused rest error) :
    cc.FirstRefused (operand :: rest) error := by
  have hFront : ∀ fits ∈ [operand], cc.Fits fits := by simpa using hFits
  exact right hFront h

/-- Where there is a first operand that does not fit, not all of them do. -/
theorem not_fits (h : cc.FirstRefused operands error) : ¬∀ operand ∈ operands, cc.Fits operand := by
  obtain ⟨before, operand, after, rfl, -, hRefused⟩ := h
  exact fun hFits => hRefused.not_fits (hFits operand (by simp))

theorem not_nil (h : cc.FirstRefused [] error) : False :=
  h.not_fits (by simp)

theorem of_singleton (h : cc.FirstRefused [operand] error) : cc.Refused operand error := by
  obtain ⟨before, other, after, hOperands, -, hRefused⟩ := h
  cases before with
  | nil =>
      obtain ⟨rfl, -⟩ := List.cons.inj hOperands
      exact hRefused
  | cons first before => simp at hOperands

/-- What follows an operand that fits is what is wrong. -/
theorem of_cons (h : cc.FirstRefused (operand :: rest) error) (hFits : cc.Fits operand) :
    cc.FirstRefused rest error := by
  obtain ⟨before, other, after, hOperands, hBefore, hRefused⟩ := h
  cases before with
  | nil =>
      obtain ⟨rfl, rfl⟩ := List.cons.inj hOperands
      exact absurd hFits hRefused.not_fits
  | cons first before =>
      obtain ⟨rfl, rfl⟩ := List.cons.inj hOperands
      exact ⟨before, other, after, rfl, (List.forall_mem_cons.mp hBefore).2, hRefused⟩

end FirstRefused

/-- The operands of a total sum fit where the map has a well-formed key for each rotation. -/
theorem fits_sumOperands_iff {keys : RotationKeys} :
    (∀ operand ∈ cc.sumOperands keys, cc.Fits operand) ↔ ∀ rotation ∈ cc.rotations,
      ∃ key, keys.get? rotation = some key ∧ cc.Reduced key.alpha ∧ cc.Reduced key.beta := by
  have hEach : ∀ rotation, (∀ operand ∈ keyOperands keys rotation, cc.Fits operand) ↔
      ∃ key, keys.get? rotation = some key ∧ cc.Reduced key.alpha ∧ cc.Reduced key.beta := by
    intro rotation
    unfold keyOperands
    cases keys.get? rotation with
    | none => simp [Fits]
    | some key => simp [Fits]
  simp only [sumOperands, List.forall_mem_flatMap, hEach]

end Context

end CipherRelay.Scheme
