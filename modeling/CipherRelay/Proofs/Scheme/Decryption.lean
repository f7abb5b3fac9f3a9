import CipherRelay.Proofs.Scheme.ReEncryption
/-!
Decryption undoes encryption. Whatever key pair is made and whatever is drawn to encrypt, decryption
answers for each slot the value around zero that its plaintext counts to modulo the plaintext
modulus, and zero where there is no plaintext. The wrap correction moves these values to the
canonical residues, so values that are canonical come back as they were. Values that have no slot
each are never encrypted.
-/
namespace CipherRelay.Scheme.Context

variable {ρ : Type} [RandomSource ρ] {cc : Context}

/-- What a list of values comes back as: for each slot the representative around zero and, after the
wrap correction, the canonical residue of its value. -/
structure Returns (cc : Context) (values plain : List Int64) : Prop where
  length : plain.length = cc.ringDimension.toNat
  centres : ∀ i < cc.ringDimension.toNat, cc.Centres (plain.getD i 0) (values.getD i 0).toInt
  wraps : ∃ canon, Handoff.wrap plain cc.plaintextModulus = .ok canon ∧
    canon.length = cc.ringDimension.toNat ∧
    (∀ i < cc.ringDimension.toNat,
      (canon.getD i 0).toInt = (values.getD i 0).toInt % cc.plaintextModulus.toNat) ∧
    ((∀ v ∈ values, 0 ≤ v.toInt ∧ v.toInt < cc.plaintextModulus.toNat) →
      canon = cc.padded values)

namespace IsValid

/-- The centered values of the slots into which a list has been put. -/
theorem returns (h : cc.IsValid) {values : List Int64}
    (hLength : values.length ≤ cc.ringDimension.toNat) :
    cc.Returns values (cc.centered (cc.slotsOf values)) := by
  have := h.neZero
  constructor
  case length => exact List.length_ofFn
  case centres =>
    intro i hi
    have hCentres := h.centres_valMinAbs (z := cc.slotsOf values ⟨i, hi⟩) rfl
    rwa [← getD_centered] at hCentres
  case wraps =>
    refine ⟨cc.canonical (cc.slotsOf values), h.wrap_centered _, List.length_ofFn, ?_,
      h.canonical_slotsOf hLength⟩
    intro i hi
    rw [getD_canonical _ ⟨i, hi⟩, h.toInt_val, slotsOf, ZMod.val_intCast]

end IsValid

/-- Under a key pair of one party or of several, any values that have a slot each are encrypted, and
decryption brings them back. Longer lists are rejected. -/
theorem decryption_undoes_encryption {params : ContextParams}
    (hContext : Context.generate params = .ok cc) {keys : KeyPair} (hKeys : cc.Makes ρ keys)
    (values : List Int64) (source : ρ) :
    (values.length ≤ cc.ringDimension.toNat →
      ∃ ct after plain, cc.encrypt keys.publicKey values source = .ok ct after ∧
        cc.decrypt keys.privateKey ct = .ok plain ∧ cc.Returns values plain) ∧
    (cc.ringDimension.toNat < values.length →
      cc.encrypt keys.publicKey values source =
        .error (.error (.dimensionMismatch cc.ringDimension values.length.toUInt64)) source) := by
  have h := (isGenerated_of_generate hContext).isValid hKeys.hasRoom
  obtain ⟨s, key, rfl, hKey⟩ := h.exists_of_makes hKeys
  constructor
  · intro hFits
    obtain ⟨r, after, hEncrypt⟩ := h.encrypt_eq_ok key hFits source
    have hDecrypt := h.decrypt_eq_ok s (sealedParts key (cc.slotsOf values) r)
    rw [opened_sealedParts hKey] at hDecrypt
    exact ⟨_, after, _, hEncrypt, hDecrypt, h.returns hFits⟩
  · intro hMany
    exact h.encrypt_eq_error key hMany source

/-- Modulo an even number half the modulus and its negative come back as the half, and the least of
all signed words comes back as what it counts to. -/
theorem decryption_undoes_encryption_even :
    let cc : Context := ⟨4, 10⟩
    let keys : KeyPair := ⟨⟨[6, 0, 6, 5], [4, 4, 8, 7]⟩, ⟨[6, 0, 8, 5]⟩⟩
    let ct : Ciphertext := ⟨[7, 5, 8, 0], [8, 4, 8, 8]⟩
    let values : List Int64 := [5, -5, Int64.minValue]
    Context.generate ⟨4, 10⟩ = .ok cc ∧ cc.Makes Congruential keys ∧
      cc.encrypt keys.publicKey values (⟨8⟩ : Congruential) = .ok ct ⟨4692735444641024572⟩ ∧
      cc.decrypt keys.privateKey ct = .ok [5, 5, 2, 0] ∧ cc.Returns values [5, 5, 2, 0] ∧
      cc.encrypt keys.publicKey (values ++ values) (⟨8⟩ : Congruential) =
        .error (.error (.dimensionMismatch 4 6)) ⟨8⟩ := by
  intro cc keys ct values
  have hContext : Context.generate ⟨4, 10⟩ = .ok cc := by decide
  have hMade : keyGen ⟨4, 10⟩ (⟨7⟩ : Congruential) = .ok keys ⟨5940934178883179151⟩ := by rfl
  have hKeys : cc.Makes Congruential keys := .alone hMade
  have hCiphertext : cc.encrypt keys.publicKey values (⟨8⟩ : Congruential) =
      .ok ct ⟨4692735444641024572⟩ := by
    subst cc keys ct values
    cbv
  have hPlain : cc.decrypt keys.privateKey ct = .ok [5, 5, 2, 0] := by decide
  obtain ⟨found, after, plain, hEncrypt, hDecrypt, hReturns⟩ :=
    (decryption_undoes_encryption hContext hKeys values ⟨8⟩).1 (by decide)
  obtain ⟨rfl, rfl⟩ : ct = found ∧ _ = after := by
    simpa only [EStateM.Result.ok.injEq] using hCiphertext.symm.trans hEncrypt
  obtain rfl : [5, 5, 2, 0] = plain := by
    simpa only [Except.ok.injEq] using hPlain.symm.trans hDecrypt
  exact ⟨hContext, hKeys, hCiphertext, hPlain, hReturns,
    (decryption_undoes_encryption hContext hKeys (values ++ values) ⟨8⟩).2 (by decide)⟩

end CipherRelay.Scheme.Context
