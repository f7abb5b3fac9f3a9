import CipherRelay.Proofs.Scheme.Refusals
/-!
Validation. In a generated context no operation crashes, whatever it is given. It answers where all
of its operands fit, and every vector that it answers could be an operand again; otherwise it
refuses with the error of the first operand that does not fit. So no word is ever left to overflow
and nothing malformed gets past an operation into the next one.
-/
namespace CipherRelay

/-- What comes of drawing from a source. -/
def Draw.outcome {ρ ε α : Type} (operation : Draw ρ ε α) (source : ρ) : Except (Failure ε) α :=
  match operation source with
  | .ok value _ => .ok value
  | .error failure _ => .error failure

namespace Scheme

section Vectors

def PublicKey.vectors (key : PublicKey) : List Residues := [key.p0, key.p1]

def PrivateKey.vectors (key : PrivateKey) : List Residues := [key.s]

def KeyPair.vectors (keys : KeyPair) : List Residues :=
  keys.publicKey.vectors ++ keys.privateKey.vectors

def SwitchKey.vectors (key : SwitchKey) : List Residues := [key.alpha, key.beta]

def RotationKeys.vectors (keys : RotationKeys) : List Residues :=
  keys.entries.flatMap fun entry => entry.2.vectors

def Ciphertext.vectors (ct : Ciphertext) : List Residues := [ct.c0, ct.c1]

end Vectors

namespace Context

variable {cc : Context} {ρ α : Type} {operands : List Operand}

instance (v : Residues) : Decidable (cc.Reduced v) :=
  inferInstanceAs (Decidable (_ ∧ _))

/-- Whether every vector has one residue for each slot. -/
def AllReduced (cc : Context) (vectors : List Residues) : Prop :=
  ∀ v ∈ vectors, cc.Reduced v

/-- What comes of an operation on its operands, in the order in which they are looked at. -/
structure Validates (cc : Context) (operands : List Operand) (operation : Outcome α)
    (Sound : α → Prop) : Prop where
  answers : (∀ operand ∈ operands, cc.Fits operand) →
    ∃ value, operation = .ok value ∧ Sound value
  refuses : (¬∀ operand ∈ operands, cc.Fits operand) →
    ∃ error, operation = .error (.error error) ∧ cc.FirstRefused operands error

section Sound

theorem allReduced_public {key : PublicKey} (h : cc.checkPublic key = .ok ()) :
    cc.AllReduced key.vectors := by
  obtain ⟨hp0, hp1⟩ := checkPublic_iff.mp h
  simp [AllReduced, PublicKey.vectors, passes_iff.mp hp0, passes_iff.mp hp1]

theorem allReduced_switch {key : SwitchKey} (h : cc.checkKey key = .ok ()) :
    cc.AllReduced key.vectors := by
  obtain ⟨hAlpha, hBeta⟩ := checkKey_iff.mp h
  simp [AllReduced, SwitchKey.vectors, passes_iff.mp hAlpha, passes_iff.mp hBeta]

theorem allReduced_ciphertext {ct : Ciphertext} (h : cc.checkCiphertext ct = .ok ()) :
    cc.AllReduced ct.vectors := by
  obtain ⟨hc0, hc1⟩ := checkCiphertext_iff.mp h
  simp [AllReduced, Ciphertext.vectors, passes_iff.mp hc0, passes_iff.mp hc1]

theorem allReduced_pair {keys : KeyPair}
    (h : cc.checkPublic keys.publicKey = .ok () ∧ cc.Passes keys.privateKey.s) :
    cc.AllReduced keys.vectors := by
  refine List.forall_mem_append.mpr ⟨allReduced_public h.1, ?_⟩
  simp [PrivateKey.vectors, passes_iff.mp h.2]

theorem allReduced_rotations {keys : RotationKeys}
    (h : ∀ entry ∈ keys.entries, cc.checkKey entry.2 = .ok ()) : cc.AllReduced keys.vectors := by
  intro v hMem
  obtain ⟨entry, hEntry, hv⟩ := List.mem_flatMap.mp hMem
  exact allReduced_switch (h entry hEntry) v hv

end Sound

namespace IsGenerated

/-- The modulus of a generated context is never to blame. -/
theorem not_modulusAccounts (h : cc.IsGenerated) (crash : Crash) : ¬cc.ModulusAccounts crash := by
  have hTwo := h.two_le
  have hModulus := h.modulus_lt
  cases crash with
  | emptyRange | zeroModulus =>
      intro hZero
      have hZero : cc.plaintextModulus = 0 := hZero
      simp [hZero] at hTwo
  | overflow =>
      change ¬2 ^ 63 ≤ cc.plaintextModulus.toNat
      omega
  | capacity => exact id

variable {Q Sound : α → Prop}

/-- In a generated context an operation that guards its operands never crashes. -/
theorem validates (h : cc.IsGenerated) {operation : Outcome α}
    (hGuards : cc.Guards operands operation Q) (hSound : ∀ value, Q value → Sound value) :
    cc.Validates operands operation Sound := by
  rcases operation with (error | crash) | value
  case error.error =>
    have hError : cc.FirstRefused operands error := hGuards
    exact ⟨fun hFits => absurd hFits hError.not_fits, fun _ => ⟨error, rfl, hError⟩⟩
  case error.crash => exact absurd hGuards (h.not_modulusAccounts crash)
  case ok =>
    exact ⟨fun _ => ⟨value, rfl, hSound value hGuards.2⟩, fun hUnfit => absurd hGuards.1 hUnfit⟩

theorem validates_draw (h : cc.IsGenerated) {operation : Draw ρ EngineError α}
    (hGuards : cc.DrawGuards operands operation Q) (hSound : ∀ value, Q value → Sound value)
    (source : ρ) : cc.Validates operands (operation.outcome source) Sound := by
  refine h.validates (Q := Q) ?_ hSound
  have hHere := hGuards source
  unfold Draw.outcome
  revert hHere
  rcases operation source with ⟨value, after⟩ | ⟨error | crash, after⟩
  · exact id
  · exact id
  · exact id

/-- What looks at no operands answers. -/
theorem answers_draw (h : cc.IsGenerated) {operation : Draw ρ EngineError α}
    (hAnswers : cc.DrawAnswers operation Q (cc.FirstRefused []))
    (hSound : ∀ value, Q value → Sound value) (source : ρ) :
    ∃ value, operation.outcome source = .ok value ∧ Sound value :=
  (h.validates_draw (.nil hAnswers) hSound source).answers (by simp)

end IsGenerated

/-- How a context treats what its operations are given, with words drawn from sources of a type. The
operands of each operation are listed in the order in which they are looked at. -/
structure IsGuarded (ρ : Type) [RandomSource ρ] (cc : Context) : Prop where
  encrypt : ∀ (key : PublicKey) (values : List Int64) (source : ρ),
    cc.Validates [.vector key.p0, .vector key.p1, .values values]
      ((cc.encrypt key values).outcome source) fun ct => cc.AllReduced ct.vectors
  /-- The values that come out are centered. -/
  decrypt : ∀ (key : PrivateKey) (ct : Ciphertext),
    cc.Validates [.vector key.s, .vector ct.c0, .vector ct.c1] (cc.decrypt key ct) cc.Balanced
  reKeyGen : ∀ (own : PrivateKey) (target : PublicKey) (source : ρ),
    cc.Validates [.vector own.s, .vector target.p0, .vector target.p1]
      ((cc.reKeyGen own target).outcome source) fun key => cc.AllReduced key.vectors
  reEncrypt : ∀ (ct : Ciphertext) (key : SwitchKey),
    cc.Validates [.vector ct.c0, .vector ct.c1, .vector key.alpha, .vector key.beta]
      (cc.reEncrypt ct key) fun switched => cc.AllReduced switched.vectors
  jointKeyGen : ∀ (lead : PublicKey) (source : ρ),
    cc.Validates [.vector lead.p0, .vector lead.p1] ((cc.jointKeyGen lead).outcome source)
      fun keys => cc.AllReduced keys.vectors
  productKeyAB : ∀ (key : PrivateKey) (first : SwitchKey),
    cc.Validates [.vector key.s, .vector first.alpha, .vector first.beta]
      (cc.productKeyAB key first) fun ab => cc.AllReduced ab.vectors
  productKeyBAB : ∀ (key : PrivateKey) (ab : SwitchKey),
    cc.Validates [.vector key.s, .vector ab.alpha, .vector ab.beta]
      (cc.productKeyBAB key ab) fun bab => cc.AllReduced bab.vectors
  productKeyFinal : ∀ (key : PrivateKey) (ab bab : SwitchKey),
    cc.Validates [.vector key.s, .vector ab.alpha, .vector ab.beta, .vector bab.alpha,
      .vector bab.beta] (cc.productKeyFinal key ab bab) fun product => cc.AllReduced product.vectors
  sumKeysJoin : ∀ (key : PrivateKey) (first : RotationKeys),
    cc.Validates (.vector key.s :: cc.sumOperands first) (cc.sumKeysJoin key first)
      fun keys => cc.AllReduced keys.vectors
  evalAdd : ∀ a b : Ciphertext,
    cc.Validates [.vector a.c0, .vector a.c1, .vector b.c0, .vector b.c1] (cc.evalAdd a b)
      fun ct => cc.AllReduced ct.vectors
  evalMult : ∀ (a b : Ciphertext) (key : SwitchKey),
    cc.Validates [.vector a.c0, .vector a.c1, .vector b.c0, .vector b.c1, .vector key.alpha,
      .vector key.beta] (cc.evalMult a b key) fun ct => cc.AllReduced ct.vectors
  evalSum : ∀ (ct : Ciphertext) (keys : RotationKeys),
    cc.Validates (.vector ct.c0 :: .vector ct.c1 :: cc.sumOperands keys) (cc.evalSum ct keys)
      fun sum => cc.AllReduced sum.vectors
  leadShare : ∀ (key : PrivateKey) (ct : Ciphertext),
    cc.Validates [.vector key.s, .vector ct.c0, .vector ct.c1] (cc.leadShare key ct)
      fun share => cc.Reduced share.share
  mainShare : ∀ (key : PrivateKey) (ct : Ciphertext),
    cc.Validates [.vector key.s, .vector ct.c0, .vector ct.c1] (cc.mainShare key ct)
      fun share => cc.Reduced share.share
  /-- The values that come out are centered. -/
  fuse : ∀ lead main : Share,
    cc.Validates [.vector lead.share, .vector main.share] (cc.fuse lead main) cc.Balanced
  /-- What a map brings in for a total sum fits where it has a well-formed key for each rotation,
  whatever else is in it. -/
  sumOperands : ∀ keys : RotationKeys, (∀ operand ∈ cc.sumOperands keys, cc.Fits operand) ↔
    ∀ rotation ∈ cc.rotations, ∃ key, keys.get? rotation = some key ∧ cc.AllReduced key.vectors
  /-- The rotations are the powers of two below the ring dimension, in increasing order. -/
  rotations : ∃ k < 64, cc.ringDimension.toNat = 2 ^ k ∧
    cc.rotations = (List.range k).map fun j => (2 ^ j).toUInt64
  /-- A key pair is made where there is room for it. -/
  keyGen : ∀ source : ρ,
    if cc.HasRoom then
      ∃ keys, (cc.keyGen : Draw ρ EngineError KeyPair).outcome source = .ok keys ∧
        cc.AllReduced keys.vectors
    else (cc.keyGen : Draw ρ EngineError KeyPair).outcome source = .error (.crash .capacity)
  /-- A secret is looked at by neither of the first rounds; it has to be well-formed. -/
  productKey : ∀ (key : PrivateKey) (source : ρ), cc.Reduced key.s → ∃ product,
    (cc.productKey key).outcome source = .ok product ∧ cc.AllReduced product.vectors
  sumKeys : ∀ (key : PrivateKey) (source : ρ), cc.Reduced key.s → ∃ keys,
    (cc.sumKeys key).outcome source = .ok keys ∧ cc.AllReduced keys.vectors

theorem balanced_of_generated (h : cc.IsGenerated) {values : List Int64}
    (hValues : cc.plaintextModulus.toNat < 2 ^ 63 → cc.Balanced values) : cc.Balanced values :=
  hValues (Nat.lt_of_lt_of_le h.modulus_lt (by decide))

/-- In every generated context the operations validate what they are given. -/
theorem isGuarded_of_generate {params : ContextParams} (hContext : Context.generate params = .ok cc)
    (ρ : Type) [RandomSource ρ] : cc.IsGuarded ρ := by
  have h := isGenerated_of_generate hContext
  constructor
  case encrypt =>
    exact fun key values => h.validates_draw (encrypt_guards key values) fun _ =>
      allReduced_ciphertext
  case decrypt =>
    exact fun key ct => h.validates (decrypt_guards key ct) fun _ => balanced_of_generated h
  case reKeyGen =>
    exact fun own target => h.validates_draw (reKeyGen_guards own target) fun _ => allReduced_switch
  case reEncrypt =>
    exact fun ct key => h.validates (reEncrypt_guards ct key) fun _ => allReduced_ciphertext
  case jointKeyGen =>
    exact fun lead => h.validates_draw (jointKeyGen_guards lead) fun _ => allReduced_pair
  case productKeyAB =>
    exact fun key first => h.validates (productKeyAB_guards key first) fun _ => allReduced_switch
  case productKeyBAB =>
    exact fun key ab => h.validates (productKeyBAB_guards key ab) fun _ => allReduced_switch
  case productKeyFinal =>
    exact fun key ab bab => h.validates (productKeyFinal_guards key ab bab) fun _ =>
      allReduced_switch
  case sumKeysJoin =>
    exact fun key first => h.validates (sumKeysJoin_guards key first) fun _ => allReduced_rotations
  case evalAdd => exact fun a b => h.validates (evalAdd_guards a b) fun _ => allReduced_ciphertext
  case evalMult =>
    exact fun a b key => h.validates (evalMult_guards a b key) fun _ => allReduced_ciphertext
  case evalSum =>
    exact fun ct keys => h.validates (evalSum_guards ct keys) fun _ => allReduced_ciphertext
  case leadShare =>
    exact fun key ct => h.validates (leadShare_guards key ct) fun _ => passes_iff.mp
  case mainShare =>
    exact fun key ct => h.validates (mainShare_guards key ct) fun _ => passes_iff.mp
  case fuse =>
    exact fun lead main => h.validates (fuse_guards lead main) fun _ => balanced_of_generated h
  case sumOperands =>
    intro keys
    rw [fits_sumOperands_iff]
    simp [AllReduced, SwitchKey.vectors]
  case rotations =>
    obtain ⟨k, -, hLarge, hPower⟩ := exists_pow_of_isRing h.isRing
    exact ⟨k, hLarge, hPower, rotations_eq hLarge hPower⟩
  case keyGen =>
    intro source
    split
    case isTrue hRoom =>
      exact h.answers_draw (keyGen_answers hRoom) (fun _ => allReduced_pair) source
    case isFalse hNone => rw [Draw.outcome, keyGen_eq_crash hNone]
  case productKey =>
    exact fun key source hKey => h.answers_draw (productKey_answers (passes_iff.mpr hKey))
      (fun _ => allReduced_switch) source
  case sumKeys =>
    exact fun key source hKey => h.answers_draw (sumKeys_answers (passes_iff.mpr hKey))
      (fun _ => allReduced_rotations) source

/-- A vector that is too short comes before one with too large an entry, and a map without a key for
the second rotation is refused for that. -/
theorem isGuarded_of_generate_sample :
    let cc : Context := ⟨4, 10⟩
    let key : SwitchKey := ⟨[1, 1, 1, 7], [1, 1, 1, 1]⟩
    let keys := RotationKeys.ofList [(1, key), (3, key)]
    Context.generate ⟨4, 10⟩ = .ok cc ∧ cc.IsGuarded Congruential ∧
      cc.fuse ⟨[9, 1, 2]⟩ ⟨[0, 0, 0, 11]⟩ = .error (.error (.dimensionMismatch 4 3)) ∧
      cc.fuse ⟨[9, 1, 2, 0]⟩ ⟨[0, 10, 0, 11]⟩ = .error (.error (.residueOutOfRange 10 10)) ∧
      cc.evalSum ⟨[9, 1, 2, 0], [0, 0, 0, 0]⟩ keys = .error (.error (.missingSumKey 2)) := by
  intro cc key keys
  have hContext : Context.generate ⟨4, 10⟩ = .ok cc := by decide
  refine ⟨hContext, isGuarded_of_generate hContext Congruential, ?_⟩
  decide

end Context

end Scheme

end CipherRelay
