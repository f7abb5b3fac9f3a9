import CipherRelay.Proofs.Scheme.Entries
/-!
Re-encryption. A party hands a ciphertext over to another one with a switching key, which is made
from its own secret and the other one's public key. It does not matter where the ciphertext comes
from or what is drawn for the key: the other party reads what the first one has read. So a
ciphertext can be handed on from party to party, and everybody on the way reads the same. Several
parties with a joint key can stand in the place of one.
-/
namespace CipherRelay.Scheme.Context

variable {ρ : Type} [RandomSource ρ] {cc : Context}

/-- Key pairs that are made with draws from any sources. One party makes its own; whoever joins
makes the public key of all of them, whose secret is the sum of theirs. -/
inductive Makes (ρ : Type) [RandomSource ρ] (cc : Context) : KeyPair → Prop
  | alone {source after : ρ} {keys : KeyPair} (made : cc.keyGen source = .ok keys after) :
      Makes ρ cc keys
  | joined {source after : ρ} {lead own : KeyPair} (first : Makes ρ cc lead)
      (made : cc.jointKeyGen lead.publicKey source = .ok own after) :
      Makes ρ cc ⟨own.publicKey, cc.jointKey lead.privateKey own.privateKey⟩

/-- Hands a ciphertext on from party to party and answers what each of them gets. -/
def handOn (cc : Context) (holder : PrivateKey) (ct : Ciphertext) :
    List KeyPair → Draw ρ EngineError (List Ciphertext)
  | [] => return []
  | next :: rest => do
      let key ← cc.reKeyGen holder next.publicKey
      let handed ← cc.reEncrypt ct key
      let later ← cc.handOn next.privateKey handed rest
      return handed :: later

/-- A well-formed ciphertext in which a secret reads these values. -/
structure Reads (cc : Context) (key : PrivateKey) (values : List Int64) (ct : Ciphertext) :
    Prop where
  check : cc.checkCiphertext ct = .ok ()
  decrypts : cc.decrypt key ct = .ok values

/-- Nobody makes a key pair without room for the secret. -/
theorem Makes.hasRoom {keys : KeyPair} (h : cc.Makes ρ keys) : cc.HasRoom := by
  induction h with
  | alone made => exact hasRoom_of_keyGen made
  | joined first made ih => exact ih

namespace IsValid

/-- A public key opens to zero under its secret, also where several parties have made it. -/
theorem exists_of_makes (h : cc.IsValid) {keys : KeyPair} (hKeys : cc.Makes ρ keys) :
    ∃ (s : cc.Slots) (parts : cc.Parts), keys = ⟨cc.publicKey parts, cc.privateKey s⟩ ∧
      opened s parts = 0 := by
  induction hKeys with
  | @alone source after keys made =>
      obtain ⟨s, u, _, hMade⟩ := h.keyGen_eq_ok source
      rw [hMade] at made
      cases made
      exact ⟨s, keyParts s u, rfl, opened_keyParts s u⟩
  | @joined source after lead own first made ih =>
      obtain ⟨a, parts, rfl, hOpened⟩ := ih
      obtain ⟨s, _, hMade⟩ := h.jointKeyGen_eq_ok parts source
      rw [hMade] at made
      cases made
      exact ⟨a + s, jointParts parts s, by rw [h.jointKey_privateKey],
        opened_jointParts hOpened s⟩

theorem reads (h : cc.IsValid) (s : cc.Slots) (parts : cc.Parts) :
    cc.Reads (cc.privateKey s) (cc.centered (opened s parts)) (cc.ciphertext parts) :=
  ⟨h.checkCiphertext_ciphertext parts, h.decrypt_eq_ok s parts⟩

/-- Handing over leaves what a ciphertext opens to. -/
theorem exists_handed (h : cc.IsValid) (s : cc.Slots) (parts : cc.Parts) {next : cc.Slots}
    {key : cc.Parts} (hKey : opened next key = 0) (source : ρ) :
    ∃ (rekey handed : cc.Parts) (after : ρ),
      cc.reKeyGen (cc.privateKey s) (cc.publicKey key) source = .ok (cc.switchKey rekey) after ∧
      cc.reEncrypt (cc.ciphertext parts) (cc.switchKey rekey) = .ok (cc.ciphertext handed) ∧
      opened next handed = opened s parts := by
  obtain ⟨r, after, hReKey⟩ := h.reKeyGen_eq_ok s key source
  refine ⟨_, _, after, hReKey, h.reEncrypt_eq_ok parts _, ?_⟩
  rw [opened_switchedParts, opened_reKeyParts hKey]

/-- Handing on leaves what a ciphertext opens to, however many parties there are. -/
theorem exists_handedOn (h : cc.IsValid) (s : cc.Slots) (parts : cc.Parts)
    {parties : List KeyPair} (hParties : ∀ keys ∈ parties, cc.Makes ρ keys) (source : ρ) :
    ∃ handed after,
      cc.handOn (cc.privateKey s) (cc.ciphertext parts) parties source = .ok handed after ∧
      List.Forall₂ (fun keys stop => cc.Reads keys.privateKey (cc.centered (opened s parts)) stop)
        parties handed := by
  induction parties generalizing s parts source with
  | nil => exact ⟨[], source, rfl, .nil⟩
  | cons keys rest ih =>
      obtain ⟨hKeys, hRest⟩ := List.forall_mem_cons.mp hParties
      obtain ⟨next, key, rfl, hKey⟩ := h.exists_of_makes hKeys
      obtain ⟨rekey, handed, between, hReKey, hReEncrypt, hOpened⟩ :=
        h.exists_handed s parts hKey source
      obtain ⟨later, after, hLater, hReads⟩ := ih next handed hRest between
      refine ⟨cc.ciphertext handed :: later, after, ?_, .cons ?_ ?_⟩
      · rw [handOn, Draw.bind_eq hReKey, hReEncrypt, Draw.lift_outcome, pure_bind,
          Draw.bind_eq hLater]
        rfl
      · rw [← hOpened]
        exact h.reads next handed
      · rwa [hOpened] at hReads

end IsValid

/-- Whoever a ciphertext is handed over to reads what its holder reads, and so does everybody along
whom it is handed on. -/
theorem reEncryption_preserves {params : ContextParams}
    (hContext : Context.generate params = .ok cc) {holder : PrivateKey}
    (hHolder : cc.check holder.s = .ok ()) {ct : Ciphertext}
    (hCiphertext : cc.checkCiphertext ct = .ok ()) :
    ∃ values, cc.decrypt holder ct = .ok values ∧
      (∀ keys, cc.Makes ρ keys → ∀ source : ρ, ∃ rekey after handed,
        cc.reKeyGen holder keys.publicKey source = .ok rekey after ∧
        cc.reEncrypt ct rekey = .ok handed ∧ cc.Reads keys.privateKey values handed) ∧
      ∀ parties : List KeyPair, (∀ keys ∈ parties, cc.Makes ρ keys) → ∀ source : ρ,
        ∃ handed after, cc.handOn holder ct parties source = .ok handed after ∧
          List.Forall₂ (fun keys stop => cc.Reads keys.privateKey values stop) parties handed := by
  have h := isValid_of_check hContext hHolder
  obtain ⟨s, hSecret⟩ := h.exists_of_check hHolder
  obtain rfl : holder = cc.privateKey s := congrArg PrivateKey.mk hSecret
  obtain ⟨parts, rfl⟩ := h.exists_of_checkCiphertext hCiphertext
  refine ⟨cc.centered (opened s parts), h.decrypt_eq_ok s parts, ?_, ?_⟩
  · intro keys hKeys source
    obtain ⟨next, key, rfl, hKey⟩ := h.exists_of_makes hKeys
    obtain ⟨rekey, handed, after, hReKey, hReEncrypt, hOpened⟩ :=
      h.exists_handed s parts hKey source
    refine ⟨_, after, _, hReKey, hReEncrypt, ?_⟩
    rw [← hOpened]
    exact h.reads next handed
  · exact fun parties hParties source => h.exists_handedOn s parts hParties source

/-- A ciphertext that nobody has encrypted is handed on to one party, and by it to two with a joint
key. -/
theorem reEncryption_preserves_sample :
    let cc : Context := ⟨4, 10⟩
    let holder : PrivateKey := ⟨[1, 2, 3, 4]⟩
    let ct : Ciphertext := ⟨[9, 8, 7, 6], [5, 4, 3, 2]⟩
    let alice : KeyPair := ⟨⟨[6, 0, 6, 5], [4, 4, 8, 7]⟩, ⟨[6, 0, 8, 5]⟩⟩
    let both : KeyPair := ⟨⟨[8, 6, 8, 7], [4, 4, 8, 7]⟩, ⟨[8, 1, 4, 9]⟩⟩
    Context.generate ⟨4, 10⟩ = .ok cc ∧ cc.check holder.s = .ok () ∧
      cc.checkCiphertext ct = .ok () ∧ (∀ keys ∈ [alice, both], cc.Makes Congruential keys) ∧
      ∃ values, cc.decrypt holder ct = .ok values ∧
        ∃ handed after, cc.handOn holder ct [alice, both] (⟨9⟩ : Congruential) = .ok handed after ∧
          List.Forall₂ (fun keys stop => cc.Reads keys.privateKey values stop) [alice, both]
            handed := by
  intro cc holder ct alice both
  have hContext : Context.generate ⟨4, 10⟩ = .ok cc := by decide
  have hHolder : cc.check holder.s = .ok () := by decide
  have hCiphertext : cc.checkCiphertext ct = .ok () := by decide
  have hAlice : cc.Makes Congruential alice := by
    have hMade : keyGen ⟨4, 10⟩ (⟨7⟩ : Congruential) =
        .ok ⟨⟨[6, 0, 6, 5], [4, 4, 8, 7]⟩, ⟨[6, 0, 8, 5]⟩⟩ ⟨5940934178883179151⟩ := by rfl
    exact .alone hMade
  have hBoth : cc.Makes Congruential both := by
    have hMade : jointKeyGen ⟨4, 10⟩ ⟨[6, 0, 6, 5], [4, 4, 8, 7]⟩ (⟨8⟩ : Congruential) =
        .ok ⟨⟨[8, 6, 8, 7], [4, 4, 8, 7]⟩, ⟨[2, 1, 6, 4]⟩⟩ ⟨4692735444641024572⟩ := by rfl
    have hJoint : both = ⟨both.publicKey, cc.jointKey alice.privateKey ⟨[2, 1, 6, 4]⟩⟩ := by
      decide
    exact hJoint ▸ .joined hAlice hMade
  have hParties : ∀ keys ∈ [alice, both], cc.Makes Congruential keys := by
    simp only [List.mem_cons, List.not_mem_nil, or_false, forall_eq_or_imp, forall_eq]
    exact ⟨hAlice, hBoth⟩
  obtain ⟨values, hValues, -, hChain⟩ :=
    reEncryption_preserves (ρ := Congruential) hContext hHolder hCiphertext
  exact ⟨hContext, hHolder, hCiphertext, hParties, values, hValues,
    hChain [alice, both] hParties ⟨9⟩⟩

end CipherRelay.Scheme.Context
