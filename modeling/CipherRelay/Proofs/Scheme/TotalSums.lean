import CipherRelay.Proofs.Scheme.Entries
/-!
Total sums. Adding up the slots of a ciphertext needs a key for each power of two up to half the
ring dimension. Under any map that has them, whatever else is in it, the sum of all slots stands in
every slot of the result. Where one of them is missing or malformed, the operation refuses, and
nothing that has been added up by then comes out.
-/
namespace CipherRelay.Scheme.Context

variable {cc : Context}

/-- Whether a total sum needs a key for a rotation. -/
def Needs (cc : Context) (rotation : UInt64) : Prop :=
  ∃ j, rotation.toNat = 2 ^ j ∧ 2 * rotation.toNat ≤ cc.ringDimension.toNat

/-- A map with a key for each rotation that is needed. The parts of each key are well-formed and
open under the secret to the secret rotated to the left. There can be other entries. -/
def Totals (cc : Context) (secret : PrivateKey) (keys : RotationKeys) : Prop :=
  ∀ rotation, cc.Needs rotation → ∃ key, keys.get? rotation = some key ∧
    cc.OpensTo (entry secret.s) key.alpha key.beta fun i =>
      entry secret.s ((i + rotation.toNat) % cc.ringDimension.toNat)

/-- Whether a map has no key for a rotation, or one that does not pass the check. -/
def Lacks (cc : Context) (keys : RotationKeys) (rotation : UInt64) : Prop :=
  ∀ key, keys.get? rotation = some key → cc.checkKey key ≠ .ok ()

namespace IsValid

theorem needs_iff (h : cc.IsValid) (rotation : UInt64) :
    cc.Needs rotation ↔ rotation ∈ cc.rotations :=
  (h.mem_rotations rotation).symm

/-- The keys for the needed rotations are those of parts, which open to the rotated secret. -/
theorem exists_of_totals (h : cc.IsValid) {s : cc.Slots} {keys : RotationKeys}
    (hKeys : cc.Totals (cc.privateKey s) keys) :
    ∃ parts : UInt64 → cc.Parts, ∀ rotation ∈ cc.rotations,
      cc.requireKey keys rotation = .ok (cc.switchKey (parts rotation)) ∧
        opened s (parts rotation) = rotated rotation.toNat s := by
  have hEach : ∀ rotation, ∃ parts : cc.Parts, rotation ∈ cc.rotations →
      cc.requireKey keys rotation = .ok (cc.switchKey parts) ∧
        opened s parts = rotated rotation.toNat s := by
    intro rotation
    by_cases hNeeds : cc.Needs rotation
    · obtain ⟨⟨alpha, beta⟩, hGet, hOpens⟩ := hKeys rotation hNeeds
      obtain ⟨parts, hAlpha, hBeta⟩ := h.exists_of_opensTo hOpens
      have hKey : (⟨alpha, beta⟩ : SwitchKey) = cc.switchKey parts :=
        congrArg₂ SwitchKey.mk hAlpha hBeta
      have hSecret := h.entry_residues s
      refine ⟨parts, fun _ => ⟨?_, ?_⟩⟩
      · rw [hKey] at hGet
        exact requireKey_eq_ok_iff.mpr ⟨hGet, h.checkKey_switchKey parts⟩
      · apply (h.opensTo_iff hSecret (hSecret.rotated rotation.toNat)).mp
        rw [← hAlpha, ← hBeta]
        exact hOpens
    · exact ⟨0, fun hMem => absurd ((h.needs_iff rotation).mpr hMem) hNeeds⟩
  choose parts hParts using hEach
  exact ⟨parts, hParts⟩

/-- Adding up is refused at the first rotation whose key is lacking. -/
theorem exists_refused (h : cc.IsValid) {keys : RotationKeys} {rotations : List UInt64}
    (hLacks : ∃ rotation ∈ rotations, cc.Lacks keys rotation) (parts : cc.Parts) :
    ∃ rotation ∈ rotations, ∃ error, cc.requireKey keys rotation = .error error ∧
      rotations.foldlM (cc.addRotated keys) (cc.ciphertext parts) = .error (.error error) := by
  induction rotations generalizing parts with
  | nil => simp at hLacks
  | cons first rest ih =>
      rw [List.foldlM_cons]
      cases hFirst : cc.requireKey keys first with
      | error error =>
          refine ⟨first, List.mem_cons_self, error, hFirst, ?_⟩
          rw [addRotated, hFirst]
          rfl
      | ok key =>
          obtain ⟨hGet, hCheck⟩ := requireKey_eq_ok_iff.mp hFirst
          have hRest : ∃ rotation ∈ rest, cc.Lacks keys rotation := by
            obtain ⟨rotation, hMem, hLack⟩ := hLacks
            rcases List.mem_cons.mp hMem with rfl | hMem
            · exact absurd hCheck (hLack key hGet)
            · exact ⟨rotation, hMem, hLack⟩
          obtain ⟨own, rfl⟩ := h.exists_of_checkKey hCheck
          have hAdded : cc.addRotated keys (cc.ciphertext parts) first =
              .ok (cc.ciphertext (summedParts (fun _ => own) [first] parts)) :=
            h.addRotated_eq_ok hFirst parts
          obtain ⟨rotation, hMem, error, hError, hRefused⟩ :=
            ih hRest (summedParts (fun _ => own) [first] parts)
          refine ⟨rotation, List.mem_cons_of_mem _ hMem, error, hError, ?_⟩
          rw [hAdded]
          exact hRefused

theorem decrypt_constant (h : cc.IsValid) {s : cc.Slots} {parts : cc.Parts}
    {z : ZMod cc.plaintextModulus.toNat} (hOpened : opened s parts = fun _ => z) :
    cc.decrypt (cc.privateKey s) (cc.ciphertext parts) =
      .ok (List.replicate cc.ringDimension.toNat (Int64.ofInt z.valMinAbs)) := by
  rw [h.decrypt_eq_ok, hOpened, centered, List.ofFn_const]

/-- The values around zero add up to the sum of the slots. -/
theorem sum_centered (h : cc.IsValid) (v : cc.Slots) :
    ((((cc.centered v).map Int64.toInt).sum : Int) : ZMod cc.plaintextModulus.toNat) =
      ∑ i, v i := by
  have hValues : (cc.centered v).map Int64.toInt = List.ofFn fun i => (v i).valMinAbs := by
    rw [centered, List.map_ofFn]
    exact congrArg List.ofFn (funext fun i => h.toInt_valMinAbs (v i))
  rw [hValues, List.sum_ofFn, Int.cast_sum]
  exact Finset.sum_congr rfl fun i _ => ZMod.coe_valMinAbs (v i)

end IsValid

/-- Under any map with the keys that are needed, every slot of a total sum decrypts to the centered
sum of all slots of what has been added up. Under a map that lacks one of them there is no sum, only
the error that says which key it is about. -/
theorem evalSum_totals {params : ContextParams} (hContext : Context.generate params = .ok cc)
    {secret : PrivateKey} (hSecret : cc.check secret.s = .ok ()) {ct : Ciphertext}
    (hCiphertext : cc.checkCiphertext ct = .ok ()) (keys : RotationKeys) :
    (cc.Totals secret keys → ∃ plain sum total, cc.decrypt secret ct = .ok plain ∧
      cc.evalSum ct keys = .ok sum ∧
      cc.decrypt secret sum = .ok (List.replicate cc.ringDimension.toNat total) ∧
      cc.Centres total (plain.map Int64.toInt).sum) ∧
    ((∃ rotation, cc.Needs rotation ∧ cc.Lacks keys rotation) → ∃ rotation error,
      cc.Needs rotation ∧ cc.requireKey keys rotation = .error error ∧
      cc.evalSum ct keys = .error (.error error)) := by
  have h := isValid_of_check hContext hSecret
  obtain ⟨s, hSlots⟩ := h.exists_of_check hSecret
  obtain rfl : secret = cc.privateKey s := congrArg PrivateKey.mk hSlots
  obtain ⟨parts, rfl⟩ := h.exists_of_checkCiphertext hCiphertext
  constructor
  · intro hKeys
    obtain ⟨sums, hSums⟩ := h.exists_of_totals hKeys
    have hOpened : opened s (summedParts sums cc.rotations parts) =
        fun _ => ∑ i, opened s parts i := by
      rw [opened_summedParts fun rotation hMem => (hSums rotation hMem).2, gathered_rotations h]
    exact ⟨_, _, _, h.decrypt_eq_ok s parts,
      h.evalSum_of_requireKey (fun rotation hMem => (hSums rotation hMem).1) parts,
      h.decrypt_constant hOpened, h.centres_valMinAbs (h.sum_centered _)⟩
  · rintro ⟨rotation, hNeeds, hLacks⟩
    obtain ⟨found, hMem, error, hError, hRefused⟩ :=
      h.exists_refused ⟨rotation, (h.needs_iff rotation).mp hNeeds, hLacks⟩ parts
    refine ⟨found, error, (h.needs_iff found).mpr hMem, hError, ?_⟩
    rw [evalSum, h.checkCiphertext_ciphertext]
    exact hRefused

/-- A malformed key for a rotation that is not needed does no harm, and a malformed key for one that
is needed is an error. -/
theorem evalSum_totals_sample :
    let cc : Context := ⟨4, 10⟩
    let secret : PrivateKey := ⟨[1, 2, 3, 4]⟩
    let ct : Ciphertext := ⟨[9, 8, 7, 6], [5, 4, 3, 3]⟩
    let first : SwitchKey := ⟨[1, 1, 1, 7], [1, 1, 1, 1]⟩
    let second : SwitchKey := ⟨[3, 4, 1, 2], [0, 0, 0, 0]⟩
    let malformed : SwitchKey := ⟨[10], []⟩
    let keys := RotationKeys.ofList [(1, first), (2, second), (3, malformed)]
    let lacking := RotationKeys.ofList [(1, first), (2, malformed)]
    Context.generate ⟨4, 10⟩ = .ok cc ∧ cc.check secret.s = .ok () ∧
      cc.checkCiphertext ct = .ok () ∧ cc.Totals secret keys ∧
      (∃ plain sum total, cc.decrypt secret ct = .ok plain ∧ cc.evalSum ct keys = .ok sum ∧
        cc.decrypt secret sum = .ok (List.replicate 4 total) ∧
        cc.Centres total (plain.map Int64.toInt).sum) ∧
      (∃ rotation, cc.Needs rotation ∧ cc.Lacks lacking rotation) ∧
      ∃ rotation error, cc.Needs rotation ∧ cc.requireKey lacking rotation = .error error ∧
        cc.evalSum ct lacking = .error (.error error) := by
  intro cc secret ct first second malformed keys lacking
  have hContext : Context.generate ⟨4, 10⟩ = .ok cc := by decide
  have hSecret : cc.check secret.s = .ok () := by decide
  have hCiphertext : cc.checkCiphertext ct = .ok () := by decide
  have hRotations : cc.rotations = [1, 2] := by decide
  have hKeys : cc.Totals secret keys := by
    intro rotation hNeeds
    rw [(isValid_of_check hContext hSecret).needs_iff, hRotations] at hNeeds
    simp only [List.mem_cons, List.not_mem_nil, or_false] at hNeeds
    obtain rfl | rfl := hNeeds
    · exact ⟨first, by decide, by decide, by decide, by decide⟩
    · exact ⟨second, by decide, by decide, by decide, by decide⟩
  have hLacks : ∃ rotation, cc.Needs rotation ∧ cc.Lacks lacking rotation := by
    refine ⟨2, ⟨1, by decide, by decide⟩, fun key hGet => ?_⟩
    obtain rfl : malformed = key := Option.some.inj hGet
    decide
  exact ⟨hContext, hSecret, hCiphertext, hKeys,
    (evalSum_totals hContext hSecret hCiphertext keys).1 hKeys, hLacks,
    (evalSum_totals hContext hSecret hCiphertext lacking).2 hLacks⟩

end CipherRelay.Scheme.Context
