import CipherRelay.Proofs.Scheme.Openings
import CipherRelay.Proofs.Scheme.Plaintexts
import CipherRelay.Proofs.Scheme.RotationKeys
/-!
The operations of the scheme on its objects. An object that stands for slots or for parts passes
every check, and every operation on such objects succeeds and answers the object for the parts that
the operation gives. What is drawn can be any slots.
-/
namespace CipherRelay

namespace Draw

variable {ρ ε α : Type}

@[simp]
theorem lift_arithmetic (a : α) : (liftM (Except.ok a : Except Crash α) : Draw ρ ε α) = pure a :=
  rfl

@[simp]
theorem lift_engine (a : α) :
    (liftM (Except.ok a : Except Scheme.EngineError α) : Draw ρ Scheme.EngineError α) = pure a :=
  rfl

@[simp]
theorem lift_outcome (a : α) :
    (liftM (Except.ok a : Scheme.Outcome α) : Draw ρ Scheme.EngineError α) = pure a :=
  rfl

theorem lift_engine_error (error : Scheme.EngineError) (source : ρ) :
    (liftM (Except.error error : Except Scheme.EngineError α) : Draw ρ Scheme.EngineError α)
      source = .error (.error error) source :=
  rfl

end Draw

namespace Scheme

@[simp]
theorem Outcome.lift_arithmetic {α : Type} (a : α) :
    (liftM (Except.ok a : Except Crash α) : Outcome α) = pure a := rfl

@[simp]
theorem Outcome.lift_engine {α : Type} (a : α) :
    (liftM (Except.ok a : Except EngineError α) : Outcome α) = pure a := rfl

namespace Context

variable {cc : Context} {ρ : Type} [RandomSource ρ]

def privateKey (cc : Context) (s : cc.Slots) : PrivateKey := ⟨cc.residues s⟩

def publicKey (cc : Context) (parts : cc.Parts) : PublicKey :=
  ⟨cc.residues parts.1, cc.residues parts.2⟩

def switchKey (cc : Context) (parts : cc.Parts) : SwitchKey :=
  ⟨cc.residues parts.1, cc.residues parts.2⟩

def ciphertext (cc : Context) (parts : cc.Parts) : Ciphertext :=
  ⟨cc.residues parts.1, cc.residues parts.2⟩

def share (cc : Context) (v : cc.Slots) : Share := ⟨cc.residues v⟩

/-- The map with a key for each rotation of the context. -/
def rotationKeys (cc : Context) (keys : UInt64 → cc.Parts) : RotationKeys :=
  .ofList (cc.rotations.map fun rotation => (rotation, cc.switchKey (keys rotation)))

/-- The key for a rotation is found where the map has one that passes the check. -/
theorem requireKey_eq_ok_iff {keys : RotationKeys} {rotation : UInt64} {key : SwitchKey} :
    cc.requireKey keys rotation = .ok key ↔
      keys.get? rotation = some key ∧ cc.checkKey key = .ok () := by
  unfold requireKey
  cases keys.get? rotation with
  | none => simp
  | some found =>
      cases hCheck : cc.checkKey found with
      | error error =>
          simp only [hCheck, bind, Except.bind, reduceCtorEq, Option.some.injEq, false_iff, not_and]
          rintro rfl
          simp [hCheck]
      | ok _ =>
          simp only [hCheck, bind, Except.bind, pure, Except.pure, Except.ok.injEq,
            Option.some.injEq, iff_self_and]
          rintro rfl
          exact hCheck

namespace IsValid

/-- An object that stands for slots passes the check. -/
theorem check_privateKey (h : cc.IsValid) (s : cc.Slots) :
    cc.check (cc.privateKey s).s = .ok () :=
  h.check_residues s

theorem checkPublic_publicKey (h : cc.IsValid) (parts : cc.Parts) :
    cc.checkPublic (cc.publicKey parts) = .ok () := by
  simp only [checkPublic, publicKey, h.check_residues]
  rfl

/-- Two vectors that pass the check one after the other are those of parts. -/
theorem exists_of_checks (h : cc.IsValid) {first second : Residues}
    (hCheck : (do cc.check first; cc.check second : Except EngineError Unit) = .ok ()) :
    ∃ parts : cc.Parts, first = cc.residues parts.1 ∧ second = cc.residues parts.2 := by
  cases hFirst : cc.check first with
  | error error =>
      rw [hFirst] at hCheck
      cases hCheck
  | ok _ =>
      rw [hFirst] at hCheck
      obtain ⟨v, rfl⟩ := h.exists_of_check hFirst
      have hSecond : cc.check second = .ok () := hCheck
      obtain ⟨w, rfl⟩ := h.exists_of_check hSecond
      exact ⟨(v, w), rfl, rfl⟩

/-- A public key that passes the check is one of parts. -/
theorem exists_of_checkPublic (h : cc.IsValid) {key : PublicKey}
    (hCheck : cc.checkPublic key = .ok ()) : ∃ parts, key = cc.publicKey parts := by
  obtain ⟨parts, hFirst, hSecond⟩ := h.exists_of_checks hCheck
  exact ⟨parts, by rw [publicKey, ← hFirst, ← hSecond]⟩

/-- A ciphertext that passes the check is one of parts. -/
theorem exists_of_checkCiphertext (h : cc.IsValid) {ct : Ciphertext}
    (hCheck : cc.checkCiphertext ct = .ok ()) : ∃ parts, ct = cc.ciphertext parts := by
  obtain ⟨parts, hFirst, hSecond⟩ := h.exists_of_checks hCheck
  exact ⟨parts, by rw [ciphertext, ← hFirst, ← hSecond]⟩

/-- A switching key that passes the check is one of parts. -/
theorem exists_of_checkKey (h : cc.IsValid) {key : SwitchKey}
    (hCheck : cc.checkKey key = .ok ()) : ∃ parts, key = cc.switchKey parts := by
  obtain ⟨parts, hFirst, hSecond⟩ := h.exists_of_checks hCheck
  exact ⟨parts, by rw [switchKey, ← hFirst, ← hSecond]⟩

theorem checkKey_switchKey (h : cc.IsValid) (parts : cc.Parts) :
    cc.checkKey (cc.switchKey parts) = .ok () := by
  simp only [checkKey, switchKey, h.check_residues]
  rfl

theorem checkCiphertext_ciphertext (h : cc.IsValid) (parts : cc.Parts) :
    cc.checkCiphertext (cc.ciphertext parts) = .ok () := by
  simp only [checkCiphertext, ciphertext, h.check_residues]
  rfl

/-- A key pair stands for two draws. -/
theorem keyGen_eq_ok (h : cc.IsValid) (source : ρ) :
    ∃ (s u : cc.Slots) (after : ρ), cc.keyGen source =
      .ok ⟨cc.publicKey (keyParts s u), cc.privateKey s⟩ after := by
  obtain ⟨s, between, hSecret⟩ := h.sample_eq_ok (ε := EngineError) source
  obtain ⟨u, after, hMask⟩ := h.sample_eq_ok (ε := EngineError) between
  refine ⟨s, u, after, ?_⟩
  rw [keyGen, Draw.bind_eq hSecret, Draw.bind_eq hMask]
  simp only [h.mul_residues, h.neg_residues, Draw.lift_arithmetic, pure_bind]
  rfl

/-- A joint key pair stands for one draw and the lead key. -/
theorem jointKeyGen_eq_ok (h : cc.IsValid) (lead : cc.Parts) (source : ρ) :
    ∃ (s : cc.Slots) (after : ρ), cc.jointKeyGen (cc.publicKey lead) source =
      .ok ⟨cc.publicKey (jointParts lead s), cc.privateKey s⟩ after := by
  obtain ⟨s, after, hSecret⟩ := h.sample_eq_ok (ε := EngineError) source
  refine ⟨s, after, ?_⟩
  simp only [jointKeyGen, h.checkPublic_publicKey, Draw.lift_engine, pure_bind]
  rw [Draw.bind_eq hSecret]
  simp only [publicKey, h.mul_residues, h.sub_residues, Draw.lift_arithmetic, pure_bind]
  rfl

/-- A re-encryption key hides the secret under the key of its target. -/
theorem reKeyGen_eq_ok (h : cc.IsValid) (s : cc.Slots) (target : cc.Parts) (source : ρ) :
    ∃ (r : cc.Slots) (after : ρ), cc.reKeyGen (cc.privateKey s) (cc.publicKey target) source =
      .ok (cc.switchKey (reKeyParts s target r)) after := by
  obtain ⟨r, after, hMask⟩ := h.sample_eq_ok (ε := EngineError) source
  refine ⟨r, after, ?_⟩
  simp only [reKeyGen, h.check_privateKey, h.checkPublic_publicKey, Draw.lift_engine, pure_bind]
  rw [Draw.bind_eq hMask]
  simp only [publicKey, privateKey, h.mul_residues, h.add_residues, Draw.lift_arithmetic,
    pure_bind]
  rfl

/-- A ciphertext stands for the values, sealed under the key with what is drawn. -/
theorem encrypt_eq_ok (h : cc.IsValid) (key : cc.Parts) {values : List Int64}
    (hLength : values.length ≤ cc.ringDimension.toNat) (source : ρ) :
    ∃ (r : cc.Slots) (after : ρ), cc.encrypt (cc.publicKey key) values source =
      .ok (cc.ciphertext (sealedParts key (cc.slotsOf values) r)) after := by
  obtain ⟨r, after, hMask⟩ := h.sample_eq_ok (ε := EngineError) source
  refine ⟨r, after, ?_⟩
  simp only [encrypt, h.checkPublic_publicKey, h.encodeValues_eq_ok hLength, Draw.lift_engine,
    Draw.lift_outcome, pure_bind]
  rw [Draw.bind_eq hMask]
  simp only [publicKey, h.mul_residues, h.add_residues, Draw.lift_arithmetic, pure_bind]
  rfl

/-- Values that have no slot each are refused before anything is drawn. -/
theorem encrypt_eq_error (h : cc.IsValid) (key : cc.Parts) {values : List Int64}
    (hLength : cc.ringDimension.toNat < values.length) (source : ρ) :
    cc.encrypt (cc.publicKey key) values source =
      .error (.error (.dimensionMismatch cc.ringDimension values.length.toUInt64)) source := by
  simp only [encrypt, h.checkPublic_publicKey, encodeValues_eq_error hLength, Draw.lift_engine,
    pure_bind]
  rfl

/-- The first product key hides the square of the secret under the secret. -/
theorem productKey_eq_ok (h : cc.IsValid) (s : cc.Slots) (source : ρ) :
    ∃ (beta : cc.Slots) (after : ρ), cc.productKey (cc.privateKey s) source =
      .ok (cc.switchKey (switchParts (s * s) s beta)) after := by
  obtain ⟨beta, after, hMask⟩ := h.sample_eq_ok (ε := EngineError) source
  refine ⟨beta, after, ?_⟩
  rw [productKey, Draw.bind_eq hMask]
  simp only [privateKey, h.mul_residues, h.sub_residues, Draw.lift_arithmetic, pure_bind]
  rfl

/-- The key for a rotation hides the rotated secret under the secret. -/
theorem rotationKey_eq_ok (h : cc.IsValid) (s : cc.Slots) (rotation : UInt64) (source : ρ) :
    ∃ (beta : cc.Slots) (after : ρ), cc.rotationKey (cc.privateKey s) rotation source =
      .ok (rotation, cc.switchKey (switchParts (rotated rotation.toNat s) s beta)) after := by
  obtain ⟨beta, after, hMask⟩ := h.sample_eq_ok (ε := EngineError) source
  refine ⟨beta, after, ?_⟩
  rw [rotationKey, Draw.bind_eq hMask]
  simp only [privateKey, rotateLeft_residues h, h.mul_residues, h.sub_residues,
    Draw.lift_arithmetic, pure_bind]
  rfl

/-- Keys are drawn one after another, one for each of several rotations. -/
theorem mapM_rotationKey (h : cc.IsValid) (s : cc.Slots) {rotations : List UInt64}
    (hNodup : rotations.Nodup) (source : ρ) :
    ∃ (beta : UInt64 → cc.Slots) (after : ρ),
      rotations.mapM (cc.rotationKey (cc.privateKey s)) source =
        .ok (rotations.map fun rotation =>
          (rotation, cc.switchKey
            (switchParts (rotated rotation.toNat s) s (beta rotation)))) after := by
  induction rotations generalizing source with
  | nil => exact ⟨fun _ => 0, source, rfl⟩
  | cons rotation rest ih =>
      obtain ⟨hFresh, hRest⟩ := List.nodup_cons.mp hNodup
      obtain ⟨first, between, hFirst⟩ := h.rotationKey_eq_ok s rotation source
      obtain ⟨beta, after, hLater⟩ := ih hRest between
      -- No rotation occurs twice, so the new mask does not overwrite one of the others.
      refine ⟨Function.update beta rotation first, after, ?_⟩
      have hSame : ∀ other ∈ rest, Function.update beta rotation first other = beta other :=
        fun other hMem => Function.update_of_ne (ne_of_mem_of_not_mem hMem hFresh) _ _
      have hMap : (rest.map fun other => (other, cc.switchKey
          (switchParts (rotated other.toNat s) s (Function.update beta rotation first other)))) =
          rest.map fun other => (other, cc.switchKey
            (switchParts (rotated other.toNat s) s (beta other))) :=
        List.map_congr_left fun other hMem => by rw [hSame other hMem]
      rw [List.mapM_cons, Draw.bind_eq hFirst, Draw.bind_eq hLater, List.map_cons, hMap,
        Function.update_self]
      rfl

/-- The map for total sums has such a key for each rotation of the context. -/
theorem sumKeys_eq_ok (h : cc.IsValid) (s : cc.Slots) (source : ρ) :
    ∃ (beta : UInt64 → cc.Slots) (after : ρ), cc.sumKeys (cc.privateKey s) source =
      .ok (cc.rotationKeys fun rotation =>
        switchParts (rotated rotation.toNat s) s (beta rotation)) after := by
  obtain ⟨beta, after, hEntries⟩ := h.mapM_rotationKey s (nodup_rotations h) source
  refine ⟨beta, after, ?_⟩
  rw [sumKeys, Draw.bind_eq hEntries]
  rfl

/-- The second party adds the square of its own secret. -/
theorem productKeyAB_eq_ok (h : cc.IsValid) (s : cc.Slots) (first : cc.Parts) :
    cc.productKeyAB (cc.privateKey s) (cc.switchKey first) =
      .ok (cc.switchKey (joinedParts first (s * s) s)) := by
  simp only [productKeyAB, h.check_privateKey, h.checkKey_switchKey, Outcome.lift_engine,
    pure_bind]
  simp only [privateKey, switchKey, h.mul_residues, h.sub_residues, h.add_residues,
    Outcome.lift_arithmetic, pure_bind]
  rfl

/-- What it sends besides is twice its secret, whatever it has been sent. -/
theorem productKeyBAB_eq_ok (h : cc.IsValid) (s : cc.Slots) (ab : cc.Parts) :
    cc.productKeyBAB (cc.privateKey s) (cc.switchKey ab) = .ok (cc.switchKey (halfParts s)) := by
  simp only [productKeyBAB, h.check_privateKey, h.checkKey_switchKey, Outcome.lift_engine,
    pure_bind]
  simp only [privateKey, switchKey, h.add_residues, h.zeros_eq_ok, Outcome.lift_arithmetic,
    pure_bind]
  rfl

/-- From both of these the first party completes the product key. -/
theorem productKeyFinal_eq_ok (h : cc.IsValid) (s : cc.Slots) (ab bab : cc.Parts) :
    cc.productKeyFinal (cc.privateKey s) (cc.switchKey ab) (cc.switchKey bab) =
      .ok (cc.switchKey (completedParts ab bab s)) := by
  simp only [productKeyFinal, h.check_privateKey, h.checkKey_switchKey, Outcome.lift_engine,
    pure_bind]
  simp only [privateKey, switchKey, h.mul_residues, h.add_residues, Outcome.lift_arithmetic,
    pure_bind]
  rfl

/-- The map has a key for each rotation of the context. -/
theorem requireKey_rotationKeys (h : cc.IsValid) (keys : UInt64 → cc.Parts) {rotation : UInt64}
    (hMem : rotation ∈ cc.rotations) :
    cc.requireKey (cc.rotationKeys keys) rotation = .ok (cc.switchKey (keys rotation)) := by
  have hGet : (cc.rotationKeys keys).get? rotation = some (cc.switchKey (keys rotation)) := by
    rw [rotationKeys, RotationKeys.get?_ofList_map fun rotation => cc.switchKey (keys rotation),
      if_pos hMem]
  exact requireKey_eq_ok_iff.mpr ⟨hGet, h.checkKey_switchKey (keys rotation)⟩

/-- The second party adds its rotated secret to each key of the map. -/
theorem sumKeysJoin_eq_ok (h : cc.IsValid) (s : cc.Slots) (first : UInt64 → cc.Parts) :
    cc.sumKeysJoin (cc.privateKey s) (cc.rotationKeys first) =
      .ok (cc.rotationKeys fun rotation =>
        joinedParts (first rotation) (rotated rotation.toNat s) s) := by
  simp only [sumKeysJoin, h.check_privateKey, Outcome.lift_engine, pure_bind]
  rw [mapM_eq_ok (g := fun rotation => (rotation, cc.switchKey
    (joinedParts (first rotation) (rotated rotation.toNat s) s)))]
  · rfl
  · intro rotation hMem
    simp only [h.requireKey_rotationKeys first hMem, Outcome.lift_engine, pure_bind]
    simp only [privateKey, switchKey, rotateLeft_residues h, h.mul_residues, h.sub_residues,
      h.add_residues, Outcome.lift_arithmetic, pure_bind]
    rfl

/-- Decryption opens the parts and moves them around zero. -/
theorem decrypt_eq_ok (h : cc.IsValid) (s : cc.Slots) (parts : cc.Parts) :
    cc.decrypt (cc.privateKey s) (cc.ciphertext parts) = .ok (cc.centered (opened s parts)) := by
  simp only [decrypt, h.check_privateKey, h.checkCiphertext_ciphertext, Outcome.lift_engine,
    pure_bind]
  simp only [privateKey, ciphertext, h.mul_residues, h.add_residues, h.center_residues,
    Outcome.lift_arithmetic, pure_bind]
  rfl

/-- A switch moves the parts under another key. -/
theorem switch_eq_ok (h : cc.IsValid) (parts key : cc.Parts) :
    cc.switch (cc.residues parts.1) (cc.residues parts.2) (cc.switchKey key) =
      .ok (cc.ciphertext (switchedParts parts key)) := by
  simp only [switch, switchKey, h.mul_residues, h.add_residues, bind, Except.bind]
  rfl

theorem reEncrypt_eq_ok (h : cc.IsValid) (parts key : cc.Parts) :
    cc.reEncrypt (cc.ciphertext parts) (cc.switchKey key) =
      .ok (cc.ciphertext (switchedParts parts key)) := by
  simp only [reEncrypt, h.checkCiphertext_ciphertext, h.checkKey_switchKey, Outcome.lift_engine,
    pure_bind]
  simp only [ciphertext, h.switch_eq_ok, Outcome.lift_arithmetic]
  rfl

theorem evalAdd_eq_ok (h : cc.IsValid) (p q : cc.Parts) :
    cc.evalAdd (cc.ciphertext p) (cc.ciphertext q) = .ok (cc.ciphertext (p + q)) := by
  simp only [evalAdd, h.checkCiphertext_ciphertext, Outcome.lift_engine, pure_bind]
  simp only [ciphertext, h.add_residues, Outcome.lift_arithmetic, pure_bind]
  rfl

/-- A product of ciphertexts is folded back to two parts by the product key. -/
theorem evalMult_eq_ok (h : cc.IsValid) (p q key : cc.Parts) :
    cc.evalMult (cc.ciphertext p) (cc.ciphertext q) (cc.switchKey key) =
      .ok (cc.ciphertext (productParts p q key)) := by
  simp only [evalMult, h.checkCiphertext_ciphertext, h.checkKey_switchKey, Outcome.lift_engine,
    pure_bind]
  simp only [ciphertext, switchKey, h.mul_residues, h.add_residues, Outcome.lift_arithmetic,
    pure_bind]
  rfl

/-- One step of a total sum adds the rotated ciphertext, switched by the key for the rotation. -/
theorem addRotated_eq_ok (h : cc.IsValid) {keys : RotationKeys} {parts : UInt64 → cc.Parts}
    {rotation : UInt64}
    (hKey : cc.requireKey keys rotation = .ok (cc.switchKey (parts rotation))) (p : cc.Parts) :
    cc.addRotated keys (cc.ciphertext p) rotation =
      .ok (cc.ciphertext (summedParts parts [rotation] p)) := by
  have hSwitch := h.switch_eq_ok
    (rotated rotation.toNat p.1, rotated rotation.toNat p.2) (parts rotation)
  simp only [addRotated, hKey, Outcome.lift_engine, pure_bind]
  simp only [ciphertext, rotateLeft_residues h, hSwitch, h.add_residues, Outcome.lift_arithmetic,
    pure_bind]
  rfl

/-- A total sum under any map in which the keys for the rotations of the context are those of
parts. -/
theorem evalSum_of_requireKey (h : cc.IsValid) {keys : RotationKeys} {parts : UInt64 → cc.Parts}
    (hKeys : ∀ rotation ∈ cc.rotations,
      cc.requireKey keys rotation = .ok (cc.switchKey (parts rotation))) (p : cc.Parts) :
    cc.evalSum (cc.ciphertext p) keys =
      .ok (cc.ciphertext (summedParts parts cc.rotations p)) := by
  have hFold : ∀ rotations : List UInt64, (∀ rotation ∈ rotations,
      cc.requireKey keys rotation = .ok (cc.switchKey (parts rotation))) →
      ∀ p : cc.Parts, rotations.foldlM (cc.addRotated keys) (cc.ciphertext p) =
        .ok (cc.ciphertext (summedParts parts rotations p)) := by
    intro rotations
    induction rotations with
    | nil => exact fun _ _ => rfl
    | cons rotation rest ih =>
        intro hAll p
        obtain ⟨hFirst, hRest⟩ := List.forall_mem_cons.mp hAll
        rw [List.foldlM_cons, h.addRotated_eq_ok hFirst]
        exact ih hRest _
  simp only [evalSum, h.checkCiphertext_ciphertext, Outcome.lift_engine, pure_bind]
  exact hFold cc.rotations hKeys p

theorem evalSum_eq_ok (h : cc.IsValid) (keys : UInt64 → cc.Parts) (parts : cc.Parts) :
    cc.evalSum (cc.ciphertext parts) (cc.rotationKeys keys) =
      .ok (cc.ciphertext (summedParts keys cc.rotations parts)) :=
  h.evalSum_of_requireKey (fun _ hMem => h.requireKey_rotationKeys keys hMem) parts

theorem leadShare_eq_ok (h : cc.IsValid) (s : cc.Slots) (parts : cc.Parts) :
    cc.leadShare (cc.privateKey s) (cc.ciphertext parts) = .ok (cc.share (opened s parts)) := by
  simp only [leadShare, h.check_privateKey, h.checkCiphertext_ciphertext, Outcome.lift_engine,
    pure_bind]
  simp only [privateKey, ciphertext, h.mul_residues, h.add_residues, Outcome.lift_arithmetic,
    pure_bind]
  rfl

/-- The main share is only what its secret adds. -/
theorem mainShare_eq_ok (h : cc.IsValid) (s : cc.Slots) (parts : cc.Parts) :
    cc.mainShare (cc.privateKey s) (cc.ciphertext parts) = .ok (cc.share (parts.2 * s)) := by
  simp only [mainShare, h.check_privateKey, h.checkCiphertext_ciphertext, Outcome.lift_engine,
    pure_bind]
  simp only [privateKey, ciphertext, h.mul_residues, Outcome.lift_arithmetic, pure_bind]
  rfl

/-- The lead share under one secret and the main share under another fuse to what the parts open to
under the joint secret. -/
theorem fuse_eq_ok (h : cc.IsValid) (a b : cc.Slots) (parts : cc.Parts) :
    cc.fuse (cc.share (opened b parts)) (cc.share (parts.2 * a)) =
      .ok (cc.centered (opened (a + b) parts)) := by
  have hJoint : opened b parts + parts.2 * a = opened (a + b) parts := by
    rw [add_comm a b, opened_add_secret]
  simp only [fuse, share, h.check_residues, h.add_residues, hJoint, h.center_residues,
    Outcome.lift_engine, Outcome.lift_arithmetic, pure_bind]
  rfl

end IsValid

/-- Whatever a key is derived from, the derivation has a result or an error that says what is wrong
with it. A secret that passes the check shows that there is room for the mask. -/
theorem IsGenerated.reKeyGen_cases (h : cc.IsGenerated) (key : PrivateKey) (target : PublicKey)
    (source : ρ) :
    (∃ s parts r after, cc.HasRoom ∧ key = cc.privateKey s ∧ target = cc.publicKey parts ∧
      cc.reKeyGen key target source = .ok (cc.switchKey (reKeyParts s parts r)) after) ∨
      ∃ error, cc.reKeyGen key target source = .error (.error error) source := by
  cases hKey : cc.check key.s with
  | error error =>
      refine .inr ⟨error, ?_⟩
      rw [reKeyGen, hKey]
      exact Draw.bind_eq_error (Draw.lift_engine_error error source) _
  | ok _ =>
      cases hTarget : cc.checkPublic target with
      | error error =>
          refine .inr ⟨error, ?_⟩
          rw [reKeyGen, hKey, hTarget, Draw.lift_engine, pure_bind]
          exact Draw.bind_eq_error (Draw.lift_engine_error error source) _
      | ok _ =>
          obtain ⟨secret⟩ := key
          have hSecret : cc.check secret = .ok () := hKey
          have hValid := h.isValid (hasRoom_of_check hSecret)
          obtain ⟨s, rfl⟩ := hValid.exists_of_check hSecret
          obtain ⟨parts, rfl⟩ := hValid.exists_of_checkPublic hTarget
          obtain ⟨r, after, hResult⟩ := hValid.reKeyGen_eq_ok s parts source
          exact .inl ⟨s, parts, r, after, hValid.hasRoom, rfl, rfl, hResult⟩

/-- Without room for a secret no pair is made, and nothing is drawn. -/
theorem keyGen_eq_crash (h : ¬cc.HasRoom) (source : ρ) :
    cc.keyGen source = .error (.crash .capacity) source := by
  rw [keyGen, sample]
  exact Draw.bind_eq_error (Draw.vector_eq_crash h _ source) _

/-- So whoever has a pair has had room for it. -/
theorem hasRoom_of_keyGen {source after : ρ} {keys : KeyPair}
    (hKeys : cc.keyGen source = .ok keys after) : cc.HasRoom := by
  by_contra h
  rw [keyGen_eq_crash h] at hKeys
  cases hKeys

end Context

end Scheme

end CipherRelay
