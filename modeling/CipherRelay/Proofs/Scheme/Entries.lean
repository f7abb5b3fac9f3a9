import CipherRelay.Proofs.Scheme.Operations
/-!
Entries of vectors. What a vector holds can also be said in numbers: two parts open to numbers under
a secret if this holds slot by slot, modulo the plaintext modulus. The numbers stand for slots, so
this is what the parts open to in the ring of slots. A joint secret is a vector of sums.
-/
namespace CipherRelay.Scheme.Context

variable {cc : Context}

/-- The number in a slot of a vector. -/
def entry (v : Residues) (i : Nat) : Nat :=
  (v.getD i 0).toNat

/-- Two well-formed parts that open under a secret to the numbers of `wanted`. -/
structure OpensTo (cc : Context) (secret : Nat → Nat) (first second : Residues)
    (wanted : Nat → Nat) : Prop where
  check : cc.check first = .ok ()
  check' : cc.check second = .ok ()
  opens : ∀ i < cc.ringDimension.toNat,
    entry first i + entry second i * secret i ≡ wanted i [MOD cc.plaintextModulus.toNat]

/-- The key whose secret is the sum of two secrets, slot by slot modulo the plaintext modulus. -/
def jointKey (cc : Context) (a b : PrivateKey) : PrivateKey :=
  ⟨List.zipWith (fun x y => ((x.toNat + y.toNat) % cc.plaintextModulus.toNat).toUInt64) a.s b.s⟩

/-- Whether numbers stand for slots. -/
def Represents (numbers : Nat → Nat) (v : cc.Slots) : Prop :=
  ∀ i : Fin cc.ringDimension.toNat, (numbers i : ZMod cc.plaintextModulus.toNat) = v i

/-- Products of numbers represent the product of the slots. -/
theorem Represents.mul {f g : Nat → Nat} {v w : cc.Slots} (hf : Represents f v)
    (hg : Represents g w) : Represents (fun i => f i * g i) (v * w) := by
  intro i
  rw [Nat.cast_mul, hf i, hg i]
  rfl

theorem Represents.rotated {f : Nat → Nat} {v : cc.Slots} (hf : Represents f v) (rotation : Nat) :
    Represents (fun i => f ((i + rotation) % cc.ringDimension.toNat)) (rotated rotation v) :=
  fun i => hf ⟨(i + rotation) % cc.ringDimension.toNat, Nat.mod_lt _ (Nat.zero_lt_of_lt i.isLt)⟩

namespace IsValid

/-- The entries of a vector represent its slots. -/
theorem entry_residues (h : cc.IsValid) (v : cc.Slots) : Represents (entry (cc.residues v)) v := by
  intro i
  have hEntry : (cc.residues v).getD i 0 = cc.residue (v i) := by
    simp [residues]
  rw [entry, hEntry, h.cast_residue]

/-- Parts open to numbers slot by slot, modulo the plaintext modulus, where they open to the slots
that the numbers stand for. -/
theorem opensTo_iff (h : cc.IsValid) {secret wanted : Nat → Nat} {s w : cc.Slots}
    {parts : cc.Parts} (hSecret : Represents secret s) (hWanted : Represents wanted w) :
    cc.OpensTo secret (cc.residues parts.1) (cc.residues parts.2) wanted ↔ opened s parts = w := by
  have hSlot : ∀ i : Fin cc.ringDimension.toNat,
      entry (cc.residues parts.1) i + entry (cc.residues parts.2) i * secret i ≡ wanted i
        [MOD cc.plaintextModulus.toNat] ↔ opened s parts i = w i := by
    intro i
    rw [← ZMod.natCast_eq_natCast_iff, Nat.cast_add, Nat.cast_mul, h.entry_residues parts.1 i,
      h.entry_residues parts.2 i, hSecret i, hWanted i]
    rfl
  constructor
  · intro hOpens
    funext i
    exact (hSlot i).mp (hOpens.opens i i.isLt)
  · intro hOpened
    refine ⟨h.check_residues _, h.check_residues _, fun i hi => ?_⟩
    exact (hSlot ⟨i, hi⟩).mpr (congrFun hOpened _)

/-- Two vectors that open to numbers are those of parts. -/
theorem exists_of_opensTo (h : cc.IsValid) {secret wanted : Nat → Nat} {first second : Residues}
    (hOpens : cc.OpensTo secret first second wanted) :
    ∃ parts : cc.Parts, first = cc.residues parts.1 ∧ second = cc.residues parts.2 := by
  obtain ⟨v, hFirst⟩ := h.exists_of_check hOpens.check
  obtain ⟨w, hSecond⟩ := h.exists_of_check hOpens.check'
  exact ⟨(v, w), hFirst, hSecond⟩

theorem jointKey_privateKey (h : cc.IsValid) (a b : cc.Slots) :
    cc.jointKey (cc.privateKey a) (cc.privateKey b) = cc.privateKey (a + b) := by
  have := h.neZero
  refine congrArg PrivateKey.mk (List.ext_getElem (by simp [privateKey]) fun i hLeft hRight => ?_)
  simp only [privateKey, residues, List.getElem_zipWith, List.getElem_ofFn, h.toNat_residue,
    ← ZMod.val_add]
  rfl

end IsValid

end CipherRelay.Scheme.Context
