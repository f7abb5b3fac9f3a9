import CipherRelay.Proofs.Scheme.Entries
/-!
Circuits. Sums and products of ciphertexts are computed without any secret, one operation after
another. Whatever the expression, no operation fails on the way, and the ciphertext in the end opens
to what the same expression gives on the slots of the ciphertexts that it is made of. Two parties
that hold a secret each read it together, and it does not matter which of them takes the lead.
-/
namespace CipherRelay.Scheme

/-- An expression in ciphertexts. -/
inductive Circuit
  | input (ct : Ciphertext)
  | add (first second : Circuit)
  | mult (first second : Circuit)

namespace Circuit

/-- The ciphertexts that a circuit is made of. -/
def inputs : Circuit → List Ciphertext
  | input ct => [ct]
  | add first second | mult first second => first.inputs ++ second.inputs

/-- A circuit and the circuits that it is built from. -/
def subcircuits : Circuit → List Circuit
  | input ct => [input ct]
  | add first second => add first second :: (first.subcircuits ++ second.subcircuits)
  | mult first second => mult first second :: (first.subcircuits ++ second.subcircuits)

/-- The ciphertext that a circuit comes to. -/
def evaluate (cc : Context) (key : SwitchKey) : Circuit → Outcome Ciphertext
  | input ct => return ct
  | add first second => do
      let a ← first.evaluate cc key
      let b ← second.evaluate cc key
      cc.evalAdd a b
  | mult first second => do
      let a ← first.evaluate cc key
      let b ← second.evaluate cc key
      cc.evalMult a b key

/-- What the same expression gives on other values of its inputs. -/
def value {R : Type} [Add R] [Mul R] (plain : Ciphertext → R) : Circuit → R
  | input ct => plain ct
  | add first second => first.value plain + second.value plain
  | mult first second => first.value plain * second.value plain

/-- A part of a circuit has no inputs but those of the circuit. -/
theorem inputs_of_mem_subcircuits {circuit part : Circuit} (h : part ∈ circuit.subcircuits) :
    ∀ ct ∈ part.inputs, ct ∈ circuit.inputs := by
  induction circuit with
  | input ct =>
      obtain rfl := List.mem_singleton.mp h
      exact fun _ hMem => hMem
  | add first second ihFirst ihSecond | mult first second ihFirst ihSecond =>
      rcases List.mem_cons.mp h with rfl | h
      · exact fun _ hMem => hMem
      · intro ct hMem
        rcases List.mem_append.mp h with hFirst | hSecond
        · exact List.mem_append_left _ (ihFirst hFirst ct hMem)
        · exact List.mem_append_right _ (ihSecond hSecond ct hMem)

end Circuit

namespace Context

variable {cc : Context}

/-- Joint decryption, in which one party takes the lead. -/
def jointDecrypt (cc : Context) (lead main : PrivateKey) (ct : Ciphertext) :
    Outcome (List Int64) := do
  let first ← cc.leadShare lead ct
  let second ← cc.mainShare main ct
  cc.fuse first second

namespace IsValid

/-- Two shares open the parts under the sum of the secrets. -/
theorem jointDecrypt_eq_ok (h : cc.IsValid) (lead main : cc.Slots) (parts : cc.Parts) :
    cc.jointDecrypt (cc.privateKey lead) (cc.privateKey main) (cc.ciphertext parts) =
      .ok (cc.centered (opened (main + lead) parts)) := by
  rw [jointDecrypt, h.leadShare_eq_ok, h.mainShare_eq_ok]
  exact h.fuse_eq_ok main lead parts

/-- With a key for products, a circuit opens to what it gives on what its inputs open to. -/
theorem evaluate_eq_ok (h : cc.IsValid) {secret : cc.Slots} {key : cc.Parts}
    (hKey : opened secret key = secret * secret) {plain : Ciphertext → cc.Slots}
    {circuit : Circuit} (hInputs : ∀ ct ∈ circuit.inputs,
      ∃ parts, ct = cc.ciphertext parts ∧ opened secret parts = plain ct) :
    ∃ parts, circuit.evaluate cc (cc.switchKey key) = .ok (cc.ciphertext parts) ∧
      opened secret parts = circuit.value plain := by
  induction circuit with
  | input ct =>
      obtain ⟨parts, rfl, hPlain⟩ := hInputs ct (List.mem_singleton_self ct)
      exact ⟨parts, rfl, hPlain⟩
  | add first second ihFirst ihSecond =>
      obtain ⟨p, hFirst, hp⟩ := ihFirst fun ct hMem => hInputs ct (List.mem_append_left _ hMem)
      obtain ⟨q, hSecond, hq⟩ := ihSecond fun ct hMem => hInputs ct (List.mem_append_right _ hMem)
      refine ⟨p + q, ?_, ?_⟩
      · rw [Circuit.evaluate, hFirst, hSecond]
        exact h.evalAdd_eq_ok p q
      · rw [opened_add, hp, hq, Circuit.value]
  | mult first second ihFirst ihSecond =>
      obtain ⟨p, hFirst, hp⟩ := ihFirst fun ct hMem => hInputs ct (List.mem_append_left _ hMem)
      obtain ⟨q, hSecond, hq⟩ := ihSecond fun ct hMem => hInputs ct (List.mem_append_right _ hMem)
      refine ⟨productParts p q key, ?_, ?_⟩
      · rw [Circuit.evaluate, hFirst, hSecond]
        exact h.evalMult_eq_ok p q key
      · rw [opened_productParts hKey, hp, hq, Circuit.value]

end IsValid

end Context

namespace Circuit

open Context

variable {cc : Context}

/-- The ciphertext that a circuit comes to under the secrets `a` and `b` of two parties. It is
well-formed, and to whoever may read it, it holds what the circuit gives in the slots, where the
inputs have the values of `plain`. -/
structure ComesTo (cc : Context) (a b : PrivateKey) (key : SwitchKey)
    (plain : Ciphertext → List Int64) (circuit : Circuit) (result : Ciphertext) : Prop where
  evaluates : circuit.evaluate cc key = .ok result
  check : cc.checkCiphertext result = .ok ()
  decrypts : cc.decrypt (cc.jointKey a b) result =
    .ok (cc.centered (circuit.value fun ct => cc.slotsOf (plain ct)))
  fuses : cc.jointDecrypt b a result =
    .ok (cc.centered (circuit.value fun ct => cc.slotsOf (plain ct)))
  fuses' : cc.jointDecrypt a b result =
    .ok (cc.centered (circuit.value fun ct => cc.slotsOf (plain ct)))

theorem exists_comesTo (h : cc.IsValid) {alice bob : cc.Slots} {product : cc.Parts}
    (hProduct : opened (alice + bob) product = (alice + bob) * (alice + bob))
    {plain : Ciphertext → List Int64} {circuit : Circuit}
    (hInputs : ∀ ct ∈ circuit.inputs, ∃ parts, ct = cc.ciphertext parts ∧
      opened (alice + bob) parts = cc.slotsOf (plain ct)) :
    ∃ result, circuit.ComesTo cc (cc.privateKey alice) (cc.privateKey bob)
      (cc.switchKey product) plain result := by
  obtain ⟨parts, hEvaluate, hOpened⟩ := h.evaluate_eq_ok hProduct hInputs
  refine ⟨cc.ciphertext parts, hEvaluate, h.checkCiphertext_ciphertext parts, ?_, ?_, ?_⟩
  · rw [h.jointKey_privateKey, h.decrypt_eq_ok, hOpened]
  · rw [h.jointDecrypt_eq_ok, hOpened]
  · rw [h.jointDecrypt_eq_ok, add_comm, hOpened]

/-- Every circuit of well-formed ciphertexts evaluates, step by step, to what the same expression
gives on the decrypted ciphertexts. The product key may be any that belongs to the joint secret. -/
theorem every_circuit_evaluates {params : ContextParams}
    (hContext : Context.generate params = .ok cc) {a b : PrivateKey}
    (ha : cc.check a.s = .ok ()) (hb : cc.check b.s = .ok ()) {key : SwitchKey}
    (hKey : cc.OpensTo (entry (cc.jointKey a b).s) key.alpha key.beta fun i =>
      entry (cc.jointKey a b).s i * entry (cc.jointKey a b).s i)
    {circuit : Circuit} (hInputs : ∀ ct ∈ circuit.inputs, cc.checkCiphertext ct = .ok ()) :
    ∃ plain : Ciphertext → List Int64,
      (∀ ct ∈ circuit.inputs, cc.decrypt (cc.jointKey a b) ct = .ok (plain ct)) ∧
      ∀ part ∈ circuit.subcircuits, ∃ result, part.ComesTo cc a b key plain result := by
  have h := isValid_of_check hContext ha
  obtain ⟨alice, hAlice⟩ := h.exists_of_check ha
  obtain ⟨bob, hBob⟩ := h.exists_of_check hb
  obtain rfl : a = cc.privateKey alice := congrArg PrivateKey.mk hAlice
  obtain rfl : b = cc.privateKey bob := congrArg PrivateKey.mk hBob
  obtain ⟨alpha, beta⟩ := key
  obtain ⟨product, rfl, rfl⟩ := h.exists_of_opensTo hKey
  rw [h.jointKey_privateKey] at hKey ⊢
  have hSecret := h.entry_residues (alice + bob)
  have hProduct := (h.opensTo_iff hSecret (hSecret.mul hSecret)).mp hKey
  let plain : Ciphertext → List Int64 := fun ct =>
    (cc.decrypt (cc.privateKey (alice + bob)) ct).toOption.getD []
  have hPlain : ∀ ct ∈ circuit.inputs, ∃ parts, ct = cc.ciphertext parts ∧
      plain ct = cc.centered (opened (alice + bob) parts) := by
    intro ct hMem
    obtain ⟨parts, rfl⟩ := h.exists_of_checkCiphertext (hInputs ct hMem)
    refine ⟨parts, rfl, ?_⟩
    simp only [plain, h.decrypt_eq_ok]
    rfl
  refine ⟨plain, fun ct hMem => ?_, fun part hPart =>
    exists_comesTo h hProduct fun ct hMem => ?_⟩
  · obtain ⟨parts, rfl, hValues⟩ := hPlain ct hMem
    rw [h.decrypt_eq_ok, hValues]
  · obtain ⟨parts, rfl, hValues⟩ := hPlain ct (inputs_of_mem_subcircuits hPart ct hMem)
    exact ⟨parts, rfl, by rw [hValues, h.slotsOf_centered]⟩

/-- A sum that is multiplied by one of its terms, in a context whose modulus is no prime. -/
theorem every_circuit_evaluates_sample :
    let cc : Context := ⟨4, 6⟩
    let a : PrivateKey := ⟨[1, 2, 3, 4]⟩
    let b : PrivateKey := ⟨[5, 0, 2, 1]⟩
    let key : SwitchKey := ⟨[0, 0, 4, 5], [1, 2, 3, 4]⟩
    let first : Ciphertext := ⟨[1, 2, 3, 4], [5, 4, 3, 2]⟩
    let circuit : Circuit := .mult (.add (.input first) (.input ⟨[0, 1, 2, 3], [4, 5, 0, 1]⟩))
      (.input first)
    Context.generate ⟨4, 6⟩ = .ok cc ∧ cc.check a.s = .ok () ∧ cc.check b.s = .ok () ∧
      (cc.OpensTo (entry (cc.jointKey a b).s) key.alpha key.beta fun i =>
        entry (cc.jointKey a b).s i * entry (cc.jointKey a b).s i) ∧
      (∀ ct ∈ circuit.inputs, cc.checkCiphertext ct = .ok ()) ∧
      ∃ plain : Ciphertext → List Int64,
        (∀ ct ∈ circuit.inputs, cc.decrypt (cc.jointKey a b) ct = .ok (plain ct)) ∧
        ∀ part ∈ circuit.subcircuits, ∃ result, part.ComesTo cc a b key plain result := by
  intro cc a b key first circuit
  have hContext : Context.generate ⟨4, 6⟩ = .ok cc := by decide
  have ha : cc.check a.s = .ok () := by decide
  have hb : cc.check b.s = .ok () := by decide
  have hKey : cc.OpensTo (entry (cc.jointKey a b).s) key.alpha key.beta fun i =>
      entry (cc.jointKey a b).s i * entry (cc.jointKey a b).s i :=
    ⟨by decide, by decide, by decide⟩
  have hInputs : ∀ ct ∈ circuit.inputs, cc.checkCiphertext ct = .ok () := by decide
  exact ⟨hContext, ha, hb, hKey, hInputs, every_circuit_evaluates hContext ha hb hKey hInputs⟩

end Circuit

end CipherRelay.Scheme
