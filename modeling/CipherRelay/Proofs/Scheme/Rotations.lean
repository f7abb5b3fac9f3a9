import CipherRelay.Proofs.Scheme.Slots
import Mathlib.Algebra.BigOperators.Fin
import Mathlib.Data.List.Rotate
/-!
Rotations of the slots. The ring dimension is a power of two, so the rotations of a total sum are
all powers of two below it. Adding what the slots become under each of these in turn leaves the sum
of all slots in every slot.
-/
namespace CipherRelay.Scheme

/-- A ring dimension is a power of two, and not the first. -/
theorem exists_pow_of_isRing {n : UInt64} (h : isRing n) :
    ∃ k, 0 < k ∧ k < 64 ∧ n.toNat = 2 ^ k := by
  simp only [isRing, Bool.and_eq_true, decide_eq_true_eq, beq_iff_eq] at h
  obtain ⟨hTwo, hAnd⟩ := h
  have hLow : 2 ≤ n.toNat := UInt64.le_iff_toNat_le.mp hTwo
  have hOne : (1 : UInt64) ≤ n := by
    rw [UInt64.le_iff_toNat_le]
    exact le_trans (by decide) hLow
  have hBits : n.toNat &&& (n.toNat - 1) = 0 := by
    have hToNat := congrArg UInt64.toNat hAnd
    rwa [UInt64.toNat_and, UInt64.toNat_sub_of_le _ _ hOne] at hToNat
  obtain ⟨k, hPower⟩ := (Nat.and_sub_one_eq_zero_iff_isPowerOfTwo (by omega)).mp hBits
  refine ⟨k, ?_, ?_, hPower⟩
  · rcases Nat.eq_zero_or_pos k with rfl | hPositive
    · rw [hPower] at hLow
      simp at hLow
    · exact hPositive
  · have hWord := n.toNat_lt
    rw [hPower] at hWord
    exact (Nat.pow_lt_pow_iff_right (by decide)).mp hWord

/-- The powers of two but the first are the ring dimensions. -/
theorem isRing_iff {n : UInt64} : isRing n ↔ ∃ k, n.toNat = 2 ^ (k + 1) := by
  constructor
  · intro h
    obtain ⟨k, hPositive, -, hPower⟩ := exists_pow_of_isRing h
    exact ⟨k - 1, by rw [hPower, Nat.sub_add_cancel hPositive]⟩
  · rintro ⟨k, hPower⟩
    have hLow : 2 ≤ n.toNat := by
      rw [hPower]
      exact Nat.le_self_pow (Nat.succ_ne_zero k) 2
    have hOne : (1 : UInt64) ≤ n := UInt64.le_iff_toNat_le.mpr (le_trans (by decide) hLow)
    have hBits : n.toNat &&& (n.toNat - 1) = 0 :=
      (Nat.and_sub_one_eq_zero_iff_isPowerOfTwo (by omega)).mpr ⟨k + 1, hPower⟩
    have hAnd : n &&& (n - 1) = 0 := by
      rwa [← UInt64.toNat_inj, UInt64.toNat_and, UInt64.toNat_sub_of_le _ _ hOne]
    simp only [isRing, Bool.and_eq_true, decide_eq_true_eq, beq_iff_eq]
    exact ⟨UInt64.le_iff_toNat_le.mpr hLow, hAnd⟩

theorem toNat_pow {m : Nat} (h : m < 64) : (2 ^ m).toUInt64.toNat = 2 ^ m := by
  have hLt : 2 ^ m < 2 ^ 64 := Nat.pow_lt_pow_right (by decide) h
  exact UInt64.toNat_ofNat_of_lt' hLt

/-- Doubling from a power of two on gives the powers up to the bound. -/
theorem doublings_pow {k : Nat} (rest first count : Nat) (hEnd : first + rest = k)
    (hCount : rest ≤ count) :
    doublings (2 ^ k) (2 ^ first) count =
      (List.range rest).map fun j => (2 ^ (first + j)).toUInt64 := by
  induction rest generalizing first count with
  | zero =>
      obtain rfl : first = k := by omega
      cases count <;> simp [doublings]
  | succ rest ih =>
      obtain ⟨count, rfl⟩ : ∃ m, count = m + 1 := ⟨count - 1, by omega⟩
      have hBelow : 2 ^ first < 2 ^ k := Nat.pow_lt_pow_right (by decide) (by omega)
      have hNext : 2 * 2 ^ first = 2 ^ (first + 1) := by rw [pow_succ, mul_comm]
      rw [doublings, if_pos hBelow, hNext, ih (first + 1) count (by omega) (by omega),
        List.range_succ_eq_map]
      simp [Nat.add_assoc, Nat.add_comm 1]

namespace Context

variable {cc : Context}

/-- The rotations are the powers of two below the ring dimension. -/
theorem rotations_eq {k : Nat} (hLarge : k < 64) (hRing : cc.ringDimension.toNat = 2 ^ k) :
    cc.rotations = (List.range k).map fun j => (2 ^ j).toUInt64 := by
  have hAll := doublings_pow k 0 64 (Nat.zero_add k) (by omega)
  simpa [rotations, hRing] using hAll

/-- The rotations of a context are the powers of two up to half the ring dimension. -/
theorem IsValid.mem_rotations (h : cc.IsValid) (rotation : UInt64) :
    rotation ∈ cc.rotations ↔
      ∃ j, rotation.toNat = 2 ^ j ∧ 2 * rotation.toNat ≤ cc.ringDimension.toNat := by
  obtain ⟨k, -, hLarge, hPower⟩ := exists_pow_of_isRing h.isRing
  have hHalf : ∀ j, 2 * 2 ^ j ≤ 2 ^ k ↔ j < k := fun j => by
    rw [← pow_succ', Nat.pow_le_pow_iff_right (by decide), Nat.succ_le_iff]
  rw [rotations_eq hLarge hPower, List.mem_map, hPower]
  constructor
  · rintro ⟨j, hMem, rfl⟩
    have hLess := List.mem_range.mp hMem
    have hToNat := toNat_pow (hLess.trans hLarge)
    exact ⟨j, hToNat, by rw [hToNat, hHalf]; exact hLess⟩
  · rintro ⟨j, hToNat, hHalved⟩
    have hLess : j < k := by rwa [hToNat, hHalf] at hHalved
    refine ⟨j, List.mem_range.mpr hLess, ?_⟩
    rw [← UInt64.toNat_inj, toNat_pow (hLess.trans hLarge), hToNat]

def rotated (rotation : Nat) (v : cc.Slots) : cc.Slots :=
  fun i => v ⟨(i + rotation) % cc.ringDimension.toNat, Nat.mod_lt _ (Nat.zero_lt_of_lt i.isLt)⟩

theorem rotated_add (rotation : Nat) (v w : cc.Slots) :
    rotated rotation (v + w) = rotated rotation v + rotated rotation w := rfl

/-- Rotating a vector rotates its slots. -/
theorem rotateLeft_residues (h : cc.IsValid) (rotation : Nat) (v : cc.Slots) :
    (cc.residues v).rotateLeft rotation = cc.residues (rotated rotation v) := by
  obtain ⟨k, hPositive, -, hPower⟩ := exists_pow_of_isRing h.isRing
  have hLarge : ¬(cc.residues v).length ≤ 1 := by
    have hTwo : 2 ^ 1 ≤ 2 ^ k := Nat.pow_le_pow_right (by decide) hPositive
    rw [length_residues, hPower]
    omega
  have hRotate : (cc.residues v).rotateLeft rotation = (cc.residues v).rotate rotation := by
    simp only [List.rotateLeft, if_neg hLarge, List.rotate_eq_drop_append_take_mod]
  rw [hRotate]
  apply List.ext_getElem (by simp)
  intro i hLeft hRight
  rw [List.getElem_rotate]
  simp [residues, rotated]

/-- The slots and what they become under each of several rotations in turn. -/
def gathered (rotations : List UInt64) (v : cc.Slots) : cc.Slots :=
  rotations.foldl (fun v rotation => v + rotated rotation.toNat v) v

/-- After the rotations below a power of two each slot holds the sum of as many slots from it
on. -/
theorem gathered_pow (j : Nat) (hSmall : j ≤ 64) (v : cc.Slots) (i : Fin cc.ringDimension.toNat) :
    gathered ((List.range j).map fun m => (2 ^ m).toUInt64) v i =
      ∑ m ∈ Finset.range (2 ^ j), v ⟨(i + m) % cc.ringDimension.toNat,
        Nat.mod_lt _ (Nat.zero_lt_of_lt i.isLt)⟩ := by
  induction j generalizing i with
  | zero => simp [gathered, Nat.mod_eq_of_lt i.isLt]
  | succ j ih =>
      -- One more rotation adds the sums of the second half of the range to those of the first.
      have hStep : gathered ((List.range (j + 1)).map fun m => (2 ^ m).toUInt64) v =
          gathered ((List.range j).map fun m => (2 ^ m).toUInt64) v +
            rotated (2 ^ j) (gathered ((List.range j).map fun m => (2 ^ m).toUInt64) v) := by
        simp only [gathered, List.range_succ, List.map_append, List.map_cons, List.map_nil,
          List.foldl_append, List.foldl_cons, List.foldl_nil, toNat_pow (show j < 64 by omega)]
      rw [hStep, Pi.add_apply, rotated, ih (by omega), ih (by omega), pow_succ, mul_two,
        Finset.sum_range_add]
      simp only [Nat.mod_add_mod, Nat.add_assoc]

/-- The rotations of a context leave the sum of all slots in every slot. -/
theorem gathered_rotations (h : cc.IsValid) (v : cc.Slots) :
    gathered cc.rotations v = fun _ => ∑ i, v i := by
  obtain ⟨k, -, hLarge, hPower⟩ := exists_pow_of_isRing h.isRing
  funext i
  have : NeZero cc.ringDimension.toNat := ⟨by have := i.isLt; omega⟩
  rw [rotations_eq hLarge hPower, gathered_pow k (by omega), ← hPower, Finset.sum_range]
  exact Equiv.sum_comp (Equiv.addLeft i) v

/-- No rotation is there twice. -/
theorem nodup_rotations (h : cc.IsValid) : cc.rotations.Nodup := by
  obtain ⟨k, -, hLarge, hPower⟩ := exists_pow_of_isRing h.isRing
  rw [rotations_eq hLarge hPower]
  refine List.Nodup.map_on (fun a hA b hB hSame => ?_) List.nodup_range
  have hToNat := congrArg UInt64.toNat hSame
  rw [toNat_pow ((List.mem_range.mp hA).trans hLarge),
    toNat_pow ((List.mem_range.mp hB).trans hLarge)] at hToNat
  exact Nat.pow_right_injective (by decide) hToNat

end Context

end CipherRelay.Scheme
