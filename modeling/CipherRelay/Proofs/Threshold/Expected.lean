import CipherRelay.Proofs.Scheme.Plaintexts
import CipherRelay.Threshold.Expected
import Mathlib.Algebra.BigOperators.Fin
/-!
The expected results in terms of slots. The plain arithmetic of the expected results is the
arithmetic of the slots that the inputs fill, moved to around zero. Of inputs that are longer than
the slots, what goes beyond them counts in neither.
-/
namespace CipherRelay.Threshold

open Scheme

variable {cc : Context}

/-- The representative is the one of least absolute value. -/
theorem nearest_eq_ok (h : cc.IsValid) (v : Int) :
    nearest cc.plaintextModulus.toInt64 v =
      .ok (Int64.ofInt (v : ZMod cc.plaintextModulus.toNat).valMinAbs) := by
  have := h.neZero
  have hLt := h.modulus_lt
  have hBelow := h.val_lt (v : ZMod cc.plaintextModulus.toNat)
  have hHalf :
      (cc.plaintextModulus.toNat : Int).tdiv 2 = (cc.plaintextModulus.toNat / 2 : Nat) := by
    rw [Int.tdiv_eq_ediv_of_nonneg (by omega)]
    omega
  rw [nearest, if_neg h.toInt64_modulus_ne_zero, h.toInt_modulus,
    ← ZMod.val_intCast (n := cc.plaintextModulus.toNat) v, hHalf, ZMod.valMinAbs_def_pos]
  by_cases hLow : (v : ZMod cc.plaintextModulus.toNat).val ≤ cc.plaintextModulus.toNat / 2
  · rw [if_neg (by omega), if_pos hLow, signed_eq_ok (by omega) (by omega)]
  · rw [if_pos (by omega), if_neg hLow, signed_eq_ok (by omega) (by omega)]

/-- What goes beyond the slots fills none. -/
theorem slotsOf_take (values : List Int64) :
    cc.slotsOf (values.take cc.ringDimension.toNat) = cc.slotsOf values := by
  funext i
  have hEntry : (values.take cc.ringDimension.toNat).getD i 0 = values.getD i 0 := by
    simp [i.isLt]
  rw [Context.slotsOf, hEntry]
  rfl

/-- The remainders are the numbers of the slots that the values fill. -/
theorem remainders_eq_ok (h : cc.IsValid) (values : List Int64) :
    remainders cc.ringDimension.toNat cc.plaintextModulus.toInt64 values =
      .ok (List.ofFn fun i => ((cc.slotsOf values i).val : Int)) := by
  have hRemainder : ∀ v : Int64, Word.euclidean v cc.plaintextModulus.toInt64 =
      .ok (Int64.ofInt (v.toInt : ZMod cc.plaintextModulus.toNat).val) := by
    intro v
    obtain ⟨r, hRemainder, hValue, -⟩ := h.euclidean_eq_ok v
    rw [hRemainder, ← hValue, Int64.ofInt_toInt]
  have hWord : ∀ z : ZMod cc.plaintextModulus.toNat, (Int64.ofInt z.val).toInt = z.val := by
    intro z
    have hBelow := h.val_lt z
    have hLt := h.modulus_lt
    exact Int64.toInt_ofInt_of_le (by omega) (by omega)
  have hSlots : (List.ofFn fun i => ((cc.slotsOf values i).val : Int)) =
      (cc.padded (values.take cc.ringDimension.toNat)).map fun v =>
        ((v.toInt : ZMod cc.plaintextModulus.toNat).val : Int) := by
    rw [← slotsOf_take values]
    exact (Context.map_padded (fun v => ((v.toInt : ZMod cc.plaintextModulus.toNat).val : Int))
      (List.length_take_le _ _)).symm
  have hZero : (((0 : Int64).toInt : ZMod cc.plaintextModulus.toNat).val : Int) = 0 := by simp
  have hTaken : ((values.map fun v => Int64.ofInt
      (v.toInt : ZMod cc.plaintextModulus.toNat).val).map (·.toInt)).take cc.ringDimension.toNat =
      (values.take cc.ringDimension.toNat).map fun v =>
        ((v.toInt : ZMod cc.plaintextModulus.toNat).val : Int) := by
    rw [List.map_map, ← List.map_take]
    exact List.map_congr_left fun v _ => hWord _
  have hRest : cc.ringDimension.toNat - (values.take cc.ringDimension.toNat).length =
      cc.ringDimension.toNat - values.length := by
    rw [List.length_take]
    omega
  rw [remainders, mapM_eq_ok fun v _ => hRemainder v, Word.reserve_eq_ok h.hasRoom, hSlots,
    Context.padded, List.map_append, List.map_replicate, hZero, ← hTaken, hRest]
  rfl

/-- What an operation on the inputs gives in each slot. -/
def wanted (cc : Context) : Operation → cc.Slots
  | .add => cc.slotsOf firstInput + cc.slotsOf secondInput + cc.slotsOf thirdInput
  | .mult => cc.slotsOf firstInput * cc.slotsOf thirdInput
  | .sum => fun _ => ∑ i, cc.slotsOf thirdInput i

/-- The expected result of an operation is what it gives, around zero. -/
theorem expected_eq_ok (h : cc.IsValid) (operation : Operation) :
    expected operation cc.ringDimension.toNat cc.plaintextModulus =
      .ok (cc.centered (wanted cc operation)) := by
  have := h.neZero
  have hFirst := remainders_eq_ok h firstInput
  have hSecond := remainders_eq_ok h secondInput
  have hThird := remainders_eq_ok h thirdInput
  have hCast : ∀ z : ZMod cc.plaintextModulus.toNat,
      ((z.val : Int) : ZMod cc.plaintextModulus.toNat) = z := by simp
  simp only [expected, hFirst, hSecond, hThird, bind, Except.bind]
  cases operation with
  | add =>
      simp only [List.ofFn_eq_map, List.zip_map', List.mapM_map]
      rw [Context.centered, List.ofFn_eq_map]
      apply mapM_eq_ok
      intro i _
      rw [Function.comp_apply, nearest_eq_ok h, Int.cast_add, Int.cast_add, hCast, hCast, hCast]
      rfl
  | mult =>
      simp only [List.ofFn_eq_map, List.zip_map', List.mapM_map]
      rw [Context.centered, List.ofFn_eq_map]
      apply mapM_eq_ok
      intro i _
      rw [Function.comp_apply, nearest_eq_ok h, Int.cast_mul, hCast, hCast]
      rfl
  | sum =>
      rw [nearest_eq_ok h, ← List.sum_eq_foldl, List.sum_ofFn, Int.cast_sum]
      simp only [hCast, Context.centered, wanted, List.ofFn_const]
      rfl

end CipherRelay.Threshold
