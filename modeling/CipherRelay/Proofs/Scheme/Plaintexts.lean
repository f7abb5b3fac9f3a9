import CipherRelay.Handoff.Plaintext
import CipherRelay.Proofs.Scheme.Slots
/-!
Plaintexts. Encoding a list of values fills the slots with what the values count to modulo the
plaintext modulus, and zero behind them. Centered values move back to the canonical residues, so a
list of values that are residues already comes back as it was, padded with zeros.
-/
namespace CipherRelay.Scheme.Context

variable {cc : Context}

/-- What a list of values puts into the slots. -/
def slotsOf (cc : Context) (values : List Int64) : cc.Slots :=
  fun i => ((values.getD i 0).toInt : ZMod cc.plaintextModulus.toNat)

/-- A list of values with zeros behind it up to the number of slots. -/
def padded (cc : Context) (values : List Int64) : List Int64 :=
  values ++ List.replicate (cc.ringDimension.toNat - values.length) 0

def centered (cc : Context) (v : cc.Slots) : List Int64 :=
  List.ofFn fun i => Int64.ofInt (v i).valMinAbs

/-- Whether a value is the representative of a number around zero: it counts to the number modulo
the plaintext modulus `t` and lies above `-t / 2` and up to `t / 2`. -/
structure Centres (cc : Context) (value : Int64) (number : Int) : Prop where
  congruent : value.toInt ≡ number [ZMOD cc.plaintextModulus.toNat]
  above : -(cc.plaintextModulus.toNat : Int) < 2 * value.toInt
  most : 2 * value.toInt ≤ cc.plaintextModulus.toNat

def canonical (cc : Context) (v : cc.Slots) : List Int64 :=
  List.ofFn fun i => Int64.ofInt (v i).val

/-- A value, moved up by the modulus if it is negative. -/
def raised (cc : Context) (v : Int64) : Int64 :=
  if v < 0 then Int64.ofInt (v.toInt + cc.plaintextModulus.toNat) else v

theorem getD_centered (v : cc.Slots) (i : Fin cc.ringDimension.toNat) :
    (cc.centered v).getD i 0 = Int64.ofInt (v i).valMinAbs := by
  simp [centered]

theorem getD_canonical (v : cc.Slots) (i : Fin cc.ringDimension.toNat) :
    (cc.canonical v).getD i 0 = Int64.ofInt (v i).val := by
  simp [canonical]

/-- Zeros fill the slots that have no value. -/
theorem length_padded {values : List Int64} (hLength : values.length ≤ cc.ringDimension.toNat) :
    (cc.padded values).length = cc.ringDimension.toNat := by
  rw [padded, List.length_append, List.length_replicate]
  omega

/-- A list with zeros behind it has an entry for each slot. -/
theorem map_padded {α : Type} (f : Int64 → α) {values : List Int64}
    (hLength : values.length ≤ cc.ringDimension.toNat) :
    (cc.padded values).map f =
      List.ofFn fun i : Fin cc.ringDimension.toNat => f (values.getD i 0) := by
  apply List.ext_getElem (by simp [length_padded hLength])
  intro i hLeft hRight
  simp only [padded, List.getElem_map, List.getElem_ofFn]
  by_cases hInside : i < values.length
  · simp [List.getElem_append_left, hInside]
  · rw [List.getElem_append_right (by simpa using hInside)]
    simp [hInside]

namespace IsValid

theorem toInt_modulus (h : cc.IsValid) :
    cc.plaintextModulus.toInt64.toInt = cc.plaintextModulus.toNat :=
  toInt_toInt64 (by have := h.modulus_lt; omega)

theorem toInt64_modulus_ne_zero (h : cc.IsValid) : cc.plaintextModulus.toInt64 ≠ 0 := by
  intro hZero
  have hModulus := h.toInt_modulus
  have hTwo := h.two_le
  rw [hZero, Int64.toInt_zero] at hModulus
  omega

/-- The remainder of a value is the number of the element that it counts to. -/
theorem euclidean_eq_ok (h : cc.IsValid) (v : Int64) :
    ∃ r, Word.euclidean v cc.plaintextModulus.toInt64 = .ok r ∧
      r.toInt = ((v.toInt : ZMod cc.plaintextModulus.toNat).val : Int) ∧
      r.toUInt64 = cc.residue v.toInt := by
  have := h.neZero
  have hLt := h.modulus_lt
  have hModulus := h.toInt_modulus
  have hMinus : cc.plaintextModulus.toInt64 ≠ -1 := by
    rintro hMinus
    rw [hMinus] at hModulus
    simp at hModulus
  have hVal := ZMod.val_intCast (n := cc.plaintextModulus.toNat) v.toInt
  have hBelow := h.val_lt (v.toInt : ZMod cc.plaintextModulus.toNat)
  refine ⟨_, by rw [Word.euclidean, if_neg h.toInt64_modulus_ne_zero, if_neg (by simp [hMinus])],
    ?_, ?_⟩
  · rw [hModulus, ← hVal, Int64.toInt_ofInt_of_le (by omega) (by omega)]
  · rw [hModulus, ← hVal, Int64.ofInt_eq_ofNat]
    simp [residue]

/-- An encoded list stands for what its values put into the slots. -/
theorem encodeValues_eq_ok (h : cc.IsValid) {values : List Int64}
    (hLength : values.length ≤ cc.ringDimension.toNat) :
    cc.encodeValues values = .ok (cc.residues (cc.slotsOf values)) := by
  have hEncoded : (values.mapM fun v => do
      let residue ← Word.euclidean v cc.plaintextModulus.toInt64
      return residue.toUInt64 : Outcome (List UInt64)) =
        .ok (values.map fun v => cc.residue v.toInt) := by
    apply mapM_eq_ok
    intro v _
    obtain ⟨r, hRemainder, -, hResidue⟩ := h.euclidean_eq_ok v
    rw [hRemainder, ← hResidue]
    rfl
  have hResidues : cc.residues (cc.slotsOf values) =
      (cc.padded values).map fun v => cc.residue v.toInt :=
    (map_padded (fun v => cc.residue v.toInt) hLength).symm
  have hZero : cc.residue (0 : Int64).toInt = 0 := by simp [residue]
  rw [encodeValues, if_neg (by omega), hEncoded, Word.reserve_eq_ok h.hasRoom, hResidues, padded,
    List.map_append, List.map_replicate, hZero]
  rfl

/-- A list with more values than slots is refused. -/
theorem encodeValues_eq_error {values : List Int64}
    (hLength : cc.ringDimension.toNat < values.length) :
    cc.encodeValues values =
      .error (.error (.dimensionMismatch cc.ringDimension values.length.toUInt64)) := by
  rw [encodeValues, if_pos hLength]

/-- A representative around zero fits its word. -/
theorem toInt_valMinAbs (h : cc.IsValid) (z : ZMod cc.plaintextModulus.toNat) :
    (Int64.ofInt z.valMinAbs).toInt = z.valMinAbs := by
  have := h.neZero
  have hModulus := h.modulus_lt
  obtain ⟨hAbove, hBelow⟩ := ZMod.valMinAbs_mem_Ioc z
  rw [Int64.toInt_ofInt_of_le (by omega) (by omega)]

/-- The representative around zero of an element is that of every number that stands for the
element. -/
theorem centres_valMinAbs (h : cc.IsValid) {z : ZMod cc.plaintextModulus.toNat} {number : Int}
    (hNumber : (number : ZMod cc.plaintextModulus.toNat) = z) :
    cc.Centres (Int64.ofInt z.valMinAbs) number := by
  have := h.neZero
  obtain ⟨hAbove, hMost⟩ := ZMod.valMinAbs_mem_Ioc z
  constructor
  case congruent =>
    rw [← ZMod.intCast_eq_intCast_iff, h.toInt_valMinAbs, ZMod.coe_valMinAbs, hNumber]
  case above =>
    rw [h.toInt_valMinAbs]
    omega
  case most =>
    rw [h.toInt_valMinAbs]
    omega

theorem toInt_val (h : cc.IsValid) (z : ZMod cc.plaintextModulus.toNat) :
    (Int64.ofInt z.val).toInt = z.val := by
  have hLt := h.val_lt z
  have hModulus := h.modulus_lt
  rw [Int64.toInt_ofInt_of_le (by omega) (by omega)]

/-- Centered values put back into the slots what they stand for. -/
theorem slotsOf_centered (h : cc.IsValid) (v : cc.Slots) : cc.slotsOf (cc.centered v) = v := by
  funext i
  rw [slotsOf, getD_centered, h.toInt_valMinAbs, ZMod.coe_valMinAbs]

/-- No value is too low to be moved up. -/
theorem wrap_eq_ok (h : cc.IsValid) (values : List Int64) :
    Handoff.wrap values cc.plaintextModulus = .ok (values.map cc.raised) := by
  refine mapM_eq_ok fun v _ => ?_
  have hModulus := h.modulus_lt
  have hLeast := v.le_toInt
  unfold raised
  split
  case isTrue hNegative =>
    have hBelow : v.toInt < 0 := Int64.lt_iff_toInt_lt.mp hNegative
    rw [h.toInt_modulus, signed_eq_ok (by omega) (by omega)]
  case isFalse => rfl

theorem toInt_raised (h : cc.IsValid) (v : Int64) :
    (cc.raised v).toInt =
      if v.toInt < 0 then v.toInt + cc.plaintextModulus.toNat else v.toInt := by
  have hModulus := h.modulus_lt
  have hLeast := v.le_toInt
  have hSign : v < 0 ↔ v.toInt < 0 := Int64.lt_iff_toInt_lt
  unfold raised
  by_cases hNegative : v.toInt < 0
  · rw [if_pos (hSign.mpr hNegative), if_pos hNegative,
      Int64.toInt_ofInt_of_le (by omega) (by omega)]
  · rw [if_neg (hSign.not.mpr hNegative), if_neg hNegative]

/-- A value stands for a residue where it is the residue or lies one modulus below it. -/
theorem raised_eq_iff (h : cc.IsValid) {v residue : Int64} (hLow : 0 ≤ residue.toInt)
    (hHigh : residue.toInt < cc.plaintextModulus.toNat) :
    cc.raised v = residue ↔
      v.toInt = residue.toInt ∨ v.toInt = residue.toInt - cc.plaintextModulus.toNat := by
  rw [← Int64.toInt_inj, h.toInt_raised]
  split <;> omega

/-- What stands for the elements of the slots moves to their canonical residues. -/
theorem wrap_ofFn (h : cc.IsValid) {v : cc.Slots} {values : Fin cc.ringDimension.toNat → Int64}
    (hValues : ∀ i, (values i).toInt = (v i).val ∨
      (values i).toInt = (v i).val - cc.plaintextModulus.toNat) :
    Handoff.wrap (List.ofFn values) cc.plaintextModulus = .ok (cc.canonical v) := by
  rw [h.wrap_eq_ok, List.map_ofFn]
  refine congrArg (fun values => Except.ok (List.ofFn values)) (funext fun i => ?_)
  have hBelow := h.val_lt (v i)
  have hResidue := h.toInt_val (v i)
  refine (h.raised_eq_iff (by omega) (by omega)).mpr ?_
  rw [hResidue]
  exact hValues i

/-- Values around zero move back to the canonical ones. -/
theorem wrap_centered (h : cc.IsValid) (v : cc.Slots) :
    Handoff.wrap (cc.centered v) cc.plaintextModulus = .ok (cc.canonical v) := by
  have := h.neZero
  refine h.wrap_ofFn fun i => ?_
  have hVal := ZMod.val_eq_ite_valMinAbs (v i)
  rw [h.toInt_valMinAbs]
  split at hVal <;> omega

/-- Canonical values stay as they are. -/
theorem wrap_canonical (h : cc.IsValid) (v : cc.Slots) :
    Handoff.wrap (cc.canonical v) cc.plaintextModulus = .ok (cc.canonical v) :=
  h.wrap_ofFn fun i => .inl (h.toInt_val (v i))

/-- Zeros are residues. -/
theorem padded_range (h : cc.IsValid) {values : List Int64}
    (hRange : ∀ v ∈ values, 0 ≤ v.toInt ∧ v.toInt < cc.plaintextModulus.toNat) :
    ∀ v ∈ cc.padded values, 0 ≤ v.toInt ∧ v.toInt < cc.plaintextModulus.toNat := by
  have hTwo := h.two_le
  intro v hMem
  rcases List.mem_append.mp hMem with hOwn | hZero
  · exact hRange v hOwn
  · rw [List.eq_of_mem_replicate hZero, Int64.toInt_zero]
    omega

/-- Values that are below the modulus and not below zero come back as they were. -/
theorem canonical_slotsOf (h : cc.IsValid) {values : List Int64}
    (hLength : values.length ≤ cc.ringDimension.toNat)
    (hRange : ∀ v ∈ values, 0 ≤ v.toInt ∧ v.toInt < cc.plaintextModulus.toNat) :
    cc.canonical (cc.slotsOf values) = cc.padded values := by
  have := h.neZero
  have hPadded := h.padded_range hRange
  calc cc.canonical (cc.slotsOf values)
      = (cc.padded values).map fun v =>
          Int64.ofInt (v.toInt : ZMod cc.plaintextModulus.toNat).val :=
        (map_padded (fun v => Int64.ofInt (v.toInt : ZMod cc.plaintextModulus.toNat).val)
          hLength).symm
    _ = (cc.padded values).map id := by
        apply List.map_congr_left
        intro v hMem
        obtain ⟨hLow, hHigh⟩ := hPadded v hMem
        rw [ZMod.val_intCast, Int.emod_eq_of_lt hLow hHigh, Int64.ofInt_toInt, id]
    _ = cc.padded values := List.map_id _

/-- No other values come back as they were. -/
theorem canonical_slotsOf_iff (h : cc.IsValid) {values : List Int64}
    (hLength : values.length ≤ cc.ringDimension.toNat) :
    cc.canonical (cc.slotsOf values) = cc.padded values ↔
      ∀ v ∈ values, 0 ≤ v.toInt ∧ v.toInt < cc.plaintextModulus.toNat := by
  refine ⟨fun hSame v hMem => ?_, h.canonical_slotsOf hLength⟩
  have hCanonical : v ∈ cc.canonical (cc.slotsOf values) :=
    hSame ▸ List.mem_append_left _ hMem
  obtain ⟨i, rfl⟩ := List.mem_ofFn.mp hCanonical
  have hBelow := h.val_lt (cc.slotsOf values i)
  rw [h.toInt_val]
  omega

end IsValid

end CipherRelay.Scheme.Context
