import CipherRelay.Proofs.Outcomes
import CipherRelay.Scheme.Residues
import Mathlib.Algebra.Ring.Pi
import Mathlib.Data.ZMod.ValMinAbs
import Mathlib.Data.ZMod.Basic
/-!
Slots. In a valid context a vector of residues stands for one element of the integers modulo the
plaintext modulus in each slot, and these vectors form a commutative ring. Every vector operation of
the scheme succeeds on vectors of residues and is the operation of that ring, so what the scheme
computes can be worked out by its laws.
-/
namespace CipherRelay.Scheme

/-- A word that is small enough means the same with a sign as without. -/
theorem toInt_toInt64 {word : UInt64} (h : word.toNat < 2 ^ 63) :
    word.toInt64.toInt = word.toNat := by
  rw [← UInt64.ofNat_toNat (x := word), UInt64.toInt64_ofNat', Int64.toInt_ofNat_of_lt]
  · simp
  · simpa using h

/-- A number within the limits of a signed word has one. -/
theorem signed_eq_ok {v : Int} (hLeast : -2 ^ 63 ≤ v) (hGreatest : v < 2 ^ 63) :
    Word.signed v = .ok (Int64.ofInt v) := by
  have hMin : Int64.minValue.toInt = -2 ^ 63 := rfl
  have hMax : Int64.maxValue.toInt = 2 ^ 63 - 1 := rfl
  rw [Word.signed, if_pos (by omega)]

/-- A context that `Context.generate` makes. -/
structure Context.IsGenerated (cc : Context) : Prop where
  isRing : isRing cc.ringDimension
  two_le : 2 ≤ cc.plaintextModulus.toNat
  modulus_lt : cc.plaintextModulus.toNat < 2 ^ 32

/-- A generated context with room for its vectors. -/
structure Context.IsValid (cc : Context) : Prop extends cc.IsGenerated where
  hasRoom : cc.HasRoom

/-- What `Context.generate` answers has passed its checks. -/
theorem Context.isGenerated_of_generate {params : ContextParams} {cc : Context}
    (h : Context.generate params = .ok cc) : cc.IsGenerated := by
  unfold Context.generate at h
  split at h
  case isTrue => cases h
  case isFalse hRing =>
    split at h
    case isTrue => cases h
    case isFalse hModulus =>
      cases h
      rw [not_or, UInt64.not_lt, UInt64.not_lt, UInt64.le_iff_toNat_le, UInt64.le_iff_toNat_le]
        at hModulus
      exact ⟨by simpa using hRing, hModulus.1, Nat.lt_of_le_of_lt hModulus.2 (by decide)⟩

namespace Context

theorem IsGenerated.isValid {cc : Context} (h : cc.IsGenerated) (hRoom : cc.HasRoom) : cc.IsValid :=
  ⟨h, hRoom⟩

/-- One element for each slot. -/
abbrev Slots (cc : Context) : Type :=
  Fin cc.ringDimension.toNat → ZMod cc.plaintextModulus.toNat

variable {cc : Context} {ρ ε : Type}

/-- The word that stands for an element. -/
def residue (cc : Context) (z : ZMod cc.plaintextModulus.toNat) : UInt64 :=
  z.val.toUInt64

/-- The vector of residues that stands for the slots. -/
def residues (cc : Context) (v : cc.Slots) : Residues :=
  List.ofFn fun i => cc.residue (v i)

namespace IsValid

theorem neZero (h : cc.IsValid) : NeZero cc.plaintextModulus.toNat :=
  ⟨by have := h.two_le; omega⟩

theorem modulus_ne_zero (h : cc.IsValid) : cc.plaintextModulus ≠ 0 := by
  intro hZero
  have hTwo := h.two_le
  simp [hZero] at hTwo

/-- An element of a slot is below the modulus as a number. -/
theorem val_lt (h : cc.IsValid) (z : ZMod cc.plaintextModulus.toNat) :
    z.val < cc.plaintextModulus.toNat :=
  have := h.neZero
  ZMod.val_lt z

/-- The word of an element is its number. -/
theorem toNat_residue (h : cc.IsValid) (z : ZMod cc.plaintextModulus.toNat) :
    (cc.residue z).toNat = z.val := by
  have hLt := h.val_lt z
  have hModulus := h.modulus_lt
  exact UInt64.toNat_ofNat_of_lt' (by simp [UInt64.size]; omega)

theorem residue_lt (h : cc.IsValid) (z : ZMod cc.plaintextModulus.toNat) :
    cc.residue z < cc.plaintextModulus := by
  rw [UInt64.lt_iff_toNat_lt, h.toNat_residue]
  exact h.val_lt z

theorem cast_residue (h : cc.IsValid) (z : ZMod cc.plaintextModulus.toNat) :
    ((cc.residue z).toNat : ZMod cc.plaintextModulus.toNat) = z := by
  have := h.neZero
  rw [h.toNat_residue, ZMod.natCast_zmod_val]

/-- A word below the modulus is the residue of the element that it stands for. -/
theorem eq_residue (h : cc.IsValid) {word : UInt64} {z : ZMod cc.plaintextModulus.toNat}
    (hWord : word < cc.plaintextModulus) (hCast : (word.toNat : ZMod _) = z) :
    word = cc.residue z := by
  rw [UInt64.lt_iff_toNat_lt] at hWord
  rw [← UInt64.toNat_inj, h.toNat_residue, ← hCast, ZMod.val_natCast, Nat.mod_eq_of_lt hWord]

/-- A remainder is the word of the element that the number counts to. -/
theorem mod_eq_residue (h : cc.IsValid) {word : UInt64} {z : ZMod cc.plaintextModulus.toNat}
    (hCast : (word.toNat : ZMod _) = z) :
    Word.mod word cc.plaintextModulus = .ok (cc.residue z) := by
  rw [Word.mod, if_neg h.modulus_ne_zero]
  refine congrArg _ (h.eq_residue ?_ ?_)
  · rw [UInt64.lt_iff_toNat_lt, UInt64.toNat_mod]
    exact Nat.mod_lt _ (by have := h.two_le; omega)
  · rw [UInt64.toNat_mod, ZMod.natCast_mod, hCast]

end IsValid

/-- An operation on two vectors is known from what it does slot by slot. -/
theorem zip_residues {f : UInt64 → UInt64 → Except Crash UInt64} {v w result : cc.Slots}
    (h : ∀ i, f (cc.residue (v i)) (cc.residue (w i)) = .ok (cc.residue (result i))) :
    zip f (cc.residues v) (cc.residues w) = .ok (cc.residues result) := by
  have hZip : (cc.residues v).zip (cc.residues w) =
      List.ofFn fun i => (cc.residue (v i), cc.residue (w i)) := by
    simp [residues, List.ofFn_eq_map, List.zip_map']
  rw [zip, hZip]
  exact mapM_ofFn h

theorem replicate_zero : List.replicate cc.ringDimension.toNat 0 = cc.residues 0 := by
  have hZero : cc.residue 0 = 0 := by simp [residue]
  simp [residues, hZero, List.ofFn_const]

/-- The check passes the vectors with an entry below the modulus for each slot and no others. -/
theorem check_eq_ok_iff {vector : Residues} : cc.check vector = .ok () ↔
    cc.Spans vector ∧ ∀ x ∈ vector, x < cc.plaintextModulus := by
  unfold check
  split
  case isTrue hShort => simp [hShort]
  case isFalse hSpans =>
    rw [Classical.not_not] at hSpans
    split
    case h_1 x hFind =>
      have hAbove := List.find?_some hFind
      have hMem := List.mem_of_find?_eq_some hFind
      simp only [reduceCtorEq, false_iff, not_and, not_forall]
      exact fun _ => ⟨x, hMem, by simpa using hAbove⟩
    case h_2 hFind =>
      simp only [hSpans, true_and, true_iff]
      intro x hMem
      simpa using List.find?_eq_none.mp hFind x hMem

/-- A vector that passes the check shows that there is room. -/
theorem hasRoom_of_check {vector : Residues} (h : cc.check vector = .ok ()) : cc.HasRoom :=
  (check_eq_ok_iff.mp h).1.1

/-- So in a generated context it is all that a valid one asks for. -/
theorem isValid_of_check {params : ContextParams} (hContext : Context.generate params = .ok cc)
    {vector : Residues} (h : cc.check vector = .ok ()) : cc.IsValid :=
  (isGenerated_of_generate hContext).isValid (hasRoom_of_check h)

@[simp]
theorem length_residues (v : cc.Slots) : (cc.residues v).length = cc.ringDimension.toNat := by
  simp [residues]

namespace IsValid

/-- The sum of vectors is that of the ring. -/
theorem add_residues (h : cc.IsValid) (v w : cc.Slots) :
    cc.add (cc.residues v) (cc.residues w) = .ok (cc.residues (v + w)) := by
  apply zip_residues
  intro i
  have hv := h.val_lt (v i)
  have hw := h.val_lt (w i)
  have hModulus := h.modulus_lt
  have hFits : (cc.residue (v i)).toNat + (cc.residue (w i)).toNat < UInt64.size := by
    rw [h.toNat_residue, h.toNat_residue]
    simp only [UInt64.size]
    omega
  rw [Word.add, if_pos hFits]
  refine h.mod_eq_residue ?_
  rw [UInt64.toNat_add, Nat.mod_eq_of_lt hFits, Nat.cast_add, h.cast_residue, h.cast_residue]
  rfl

theorem sub_residues (h : cc.IsValid) (v w : cc.Slots) :
    cc.sub (cc.residues v) (cc.residues w) = .ok (cc.residues (v - w)) := by
  apply zip_residues
  intro i
  have hv := h.val_lt (v i)
  have hw := h.val_lt (w i)
  have hModulus := h.modulus_lt
  -- The modulus is added first, so the difference cannot fall below zero.
  have hFits : (cc.residue (v i)).toNat + cc.plaintextModulus.toNat < UInt64.size := by
    rw [h.toNat_residue]
    simp only [UInt64.size]
    omega
  have hSum : (cc.residue (v i) + cc.plaintextModulus).toNat =
      (v i).val + cc.plaintextModulus.toNat := by
    rw [UInt64.toNat_add, Nat.mod_eq_of_lt hFits, h.toNat_residue]
  have hLe : cc.residue (w i) ≤ cc.residue (v i) + cc.plaintextModulus := by
    rw [UInt64.le_iff_toNat_le, hSum, h.toNat_residue]
    omega
  simp only [Word.add, if_pos hFits, Word.sub]
  change Except.bind (if _ then _ else _) _ = _
  rw [if_pos hLe]
  refine h.mod_eq_residue ?_
  rw [UInt64.toNat_sub_of_le _ _ hLe, hSum, h.toNat_residue, Nat.cast_sub (by omega)]
  have := h.neZero
  simp

/-- A product of words is that of their slots, since none overflows. -/
theorem mul_residues (h : cc.IsValid) (v w : cc.Slots) :
    cc.mul (cc.residues v) (cc.residues w) = .ok (cc.residues (v * w)) := by
  apply zip_residues
  intro i
  have hLt : ((v i).val * (w i).val) % cc.plaintextModulus.toNat < cc.plaintextModulus.toNat :=
    Nat.mod_lt _ (by have := h.two_le; omega)
  have hModulus := h.modulus_lt
  have hWord : (((v i).val * (w i).val) % cc.plaintextModulus.toNat).toUInt64.toNat =
      ((v i).val * (w i).val) % cc.plaintextModulus.toNat :=
    UInt64.toNat_ofNat_of_lt' (by simp only [UInt64.size]; omega)
  rw [if_neg h.modulus_ne_zero, h.toNat_residue, h.toNat_residue]
  refine congrArg _ (h.eq_residue ?_ ?_)
  · rw [UInt64.lt_iff_toNat_lt, hWord]
    exact hLt
  · have := h.neZero
    rw [hWord, ZMod.natCast_mod, Nat.cast_mul, ZMod.natCast_zmod_val, ZMod.natCast_zmod_val]
    rfl

theorem neg_residues (h : cc.IsValid) (v : cc.Slots) :
    cc.neg (cc.residues v) = .ok (cc.residues (-v)) := by
  apply mapM_ofFn
  intro i
  have hLe : cc.residue (v i) ≤ cc.plaintextModulus :=
    UInt64.le_of_lt (h.residue_lt (v i))
  rw [Word.sub, if_pos hLe]
  refine h.mod_eq_residue ?_
  have := h.neZero
  rw [UInt64.toNat_sub_of_le _ _ hLe, h.toNat_residue, Nat.cast_sub (h.val_lt (v i)).le]
  simp

/-- A vector with an entry below the modulus for each slot is a vector of residues. -/
theorem exists_residues (h : cc.IsValid) {vector : Residues}
    (hLength : vector.length = cc.ringDimension.toNat)
    (hBelow : ∀ x ∈ vector, x < cc.plaintextModulus) : ∃ v, vector = cc.residues v := by
  refine ⟨fun i => ((vector.get (i.cast hLength.symm)).toNat : ZMod _), ?_⟩
  apply List.ext_getElem (by simp [hLength])
  intro i hLeft hRight
  simp only [residues, List.getElem_ofFn]
  exact h.eq_residue (hBelow _ (List.getElem_mem _)) rfl

/-- Vectors that stand for slots pass the check. -/
theorem check_residues (h : cc.IsValid) (v : cc.Slots) : cc.check (cc.residues v) = .ok () := by
  refine check_eq_ok_iff.mpr ⟨⟨h.hasRoom, length_residues v⟩, fun x hMem => ?_⟩
  obtain ⟨i, rfl⟩ := List.mem_ofFn.mp hMem
  exact h.residue_lt (v i)

theorem replicate_eq_residues (h : cc.IsValid) {x : UInt64} (hx : x < cc.plaintextModulus) :
    List.replicate cc.ringDimension.toNat x =
      cc.residues fun _ => (x.toNat : ZMod cc.plaintextModulus.toNat) := by
  have hResidue := h.eq_residue hx rfl
  rw [residues, List.ofFn_const, ← hResidue]

/-- A vector that passes the check is one of residues. -/
theorem exists_of_check (h : cc.IsValid) {vector : Residues} (hCheck : cc.check vector = .ok ()) :
    ∃ v, vector = cc.residues v := by
  obtain ⟨hSpans, hBelow⟩ := check_eq_ok_iff.mp hCheck
  exact h.exists_residues hSpans.2 hBelow

theorem zeros_eq_ok (h : cc.IsValid) : cc.zeros = .ok (cc.residues 0) := by
  rw [zeros, Word.reserve_eq_ok h.hasRoom, ← replicate_zero]
  rfl

/-- What is drawn stands for some slots. -/
theorem sample_eq_ok [RandomSource ρ] (h : cc.IsValid) (source : ρ) :
    ∃ v after, (cc.sample : Draw ρ ε Residues) source = .ok (cc.residues v) after := by
  obtain ⟨list, after, hDraw, hLength, hBelow⟩ :=
    Draw.vector_eq_ok (ε := ε) h.hasRoom h.modulus_ne_zero source
  obtain ⟨v, rfl⟩ := h.exists_residues hLength hBelow
  exact ⟨v, after, hDraw⟩

/-- Each slot is represented by the value nearest to zero. -/
theorem center_residues (h : cc.IsValid) (v : cc.Slots) :
    cc.center (cc.residues v) = .ok (List.ofFn fun i => Int64.ofInt (v i).valMinAbs) := by
  have := h.neZero
  apply mapM_ofFn
  intro i
  have hLt := h.val_lt (v i)
  have hModulus := h.modulus_lt
  have hWord : (cc.residue (v i)).toInt64.toInt = (v i).val := by
    rw [toInt_toInt64 (by rw [h.toNat_residue]; omega), h.toNat_residue]
  have hHalf : cc.plaintextModulus / 2 < cc.residue (v i) ↔
      ¬(v i).val ≤ cc.plaintextModulus.toNat / 2 := by
    rw [UInt64.lt_iff_toNat_lt, UInt64.toNat_div, h.toNat_residue, Nat.not_le]
    rfl
  rw [ZMod.valMinAbs_def_pos]
  by_cases hLow : (v i).val ≤ cc.plaintextModulus.toNat / 2
  · rw [if_neg (by rw [hHalf]; simpa using hLow), if_pos hLow, ← hWord, Int64.ofInt_toInt]
  · rw [if_pos (hHalf.mpr hLow), if_neg hLow, hWord, toInt_toInt64 (by omega),
      signed_eq_ok (by omega) (by omega)]

end IsValid

end Context

end CipherRelay.Scheme
