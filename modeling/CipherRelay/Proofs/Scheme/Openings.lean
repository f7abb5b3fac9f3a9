import CipherRelay.Proofs.Scheme.Rotations
import CipherRelay.Scheme.Evaluation
import Mathlib.Tactic.Ring
/-!
Ciphertexts, public keys and switching keys consist of two parts, and what counts is what the parts
open to under a secret. A ciphertext opens to its message, a public key to zero, and a switching key
to the secret it switches from. Each operation of the scheme is an operation on parts, and the laws
of the ring tell what its result opens to. A joint secret is the sum of two secrets.
-/
namespace CipherRelay.Scheme.Context

variable {cc : Context}

/-- The two parts of a ciphertext, a public key or a switching key. -/
abbrev Parts (cc : Context) : Type := cc.Slots × cc.Slots

/-- What two parts open to under a secret. -/
def opened (secret : cc.Slots) (parts : cc.Parts) : cc.Slots :=
  parts.1 + parts.2 * secret

/-- A second secret adds its own term. -/
theorem opened_add_secret (a b : cc.Slots) (parts : cc.Parts) :
    opened (a + b) parts = opened a parts + parts.2 * b := by
  simp only [opened, mul_add, add_assoc]

theorem opened_add (secret : cc.Slots) (p q : cc.Parts) :
    opened secret (p + q) = opened secret p + opened secret q := by
  simp only [opened, Prod.fst_add, Prod.snd_add]
  ring

def keyParts (s u : cc.Slots) : cc.Parts := (-(u * s), u)

/-- A public key opens to zero under its secret. -/
theorem opened_keyParts (s u : cc.Slots) : opened s (keyParts s u) = 0 := by
  simp only [opened, keyParts]
  ring

/-- The parts of the public key that a second party makes on top of a first one's. -/
def jointParts (lead : cc.Parts) (s : cc.Slots) : cc.Parts := (lead.1 - lead.2 * s, lead.2)

/-- A joint key opens to zero under the joint secret. -/
theorem opened_jointParts {a : cc.Slots} {lead : cc.Parts} (hLead : opened a lead = 0)
    (b : cc.Slots) : opened (a + b) (jointParts lead b) = 0 := by
  rw [← hLead]
  simp only [opened, jointParts]
  ring

def sealedParts (key : cc.Parts) (message r : cc.Slots) : cc.Parts :=
  (message + r * key.1, r * key.2)

/-- What is sealed under such a key opens to the message. -/
theorem opened_sealedParts {secret : cc.Slots} {key : cc.Parts} (hKey : opened secret key = 0)
    (message r : cc.Slots) : opened secret (sealedParts key message r) = message := by
  calc opened secret (sealedParts key message r)
      = message + r * opened secret key := by simp only [opened, sealedParts]; ring
    _ = message := by rw [hKey, mul_zero, add_zero]

/-- The parts of a key that switches from a secret to the owner of a public key. -/
def reKeyParts (source : cc.Slots) (target : cc.Parts) (r : cc.Slots) : cc.Parts :=
  (source + r * target.1, r * target.2)

/-- A re-encryption key opens to the source secret under that of the target. -/
theorem opened_reKeyParts {secret : cc.Slots} {target : cc.Parts}
    (hTarget : opened secret target = 0) (source r : cc.Slots) :
    opened secret (reKeyParts source target r) = source :=
  opened_sealedParts hTarget source r

def switchedParts (parts key : cc.Parts) : cc.Parts :=
  (parts.1 + parts.2 * key.1, parts.2 * key.2)

/-- A switched ciphertext opens under the new secret to what it opened to under the old one. -/
theorem opened_switchedParts (secret : cc.Slots) (parts key : cc.Parts) :
    opened secret (switchedParts parts key) = opened (opened secret key) parts := by
  simp only [opened, switchedParts]
  ring

/-- The parts of a product, with the part of the squared secret folded back. -/
def productParts (p q key : cc.Parts) : cc.Parts :=
  (p.1 * q.1 + p.2 * q.2 * key.1, p.1 * q.2 + p.2 * q.1 + p.2 * q.2 * key.2)

/-- A product opens to the product, where its key switches from the square of the secret. -/
theorem opened_productParts {secret : cc.Slots} {key : cc.Parts}
    (hKey : opened secret key = secret * secret) (p q : cc.Parts) :
    opened secret (productParts p q key) = opened secret p * opened secret q := by
  calc opened secret (productParts p q key)
      = p.1 * q.1 + (p.1 * q.2 + p.2 * q.1) * secret + p.2 * q.2 * opened secret key := by
        simp only [opened, productParts]; ring
    _ = opened secret p * opened secret q := by
        rw [hKey]
        simp only [opened]
        ring

/-- The parts of a key that switches from any slots to a secret. -/
def switchParts (source s beta : cc.Slots) : cc.Parts := (source - beta * s, beta)

theorem opened_switchParts (source s beta : cc.Slots) :
    opened s (switchParts source s beta) = source := by
  simp only [opened, switchParts]
  ring

/-- The parts of a key to which a second party adds what its own secret becomes. -/
def joinedParts (first : cc.Parts) (source s : cc.Slots) : cc.Parts :=
  (first.1 + (source - first.2 * s), first.2)

/-- What the second party adds to a key is added to what it opens to. -/
theorem opened_joinedParts (a b : cc.Slots) (first : cc.Parts) (source : cc.Slots) :
    opened (a + b) (joinedParts first source b) = opened a first + source := by
  simp only [opened, joinedParts]
  ring

/-- The parts of the second party's half of the mixed term. -/
def halfParts (s : cc.Slots) : cc.Parts := (0, s + s)

/-- The parts of a key to which the first party adds the mixed term. -/
def completedParts (ab bab : cc.Parts) (s : cc.Slots) : cc.Parts :=
  (ab.1 + (bab.2 * s + bab.1), ab.2)

/-- The mixed terms of the two secrets complete the square. -/
theorem opened_completedParts {a b : cc.Slots} {ab : cc.Parts}
    (hab : opened (a + b) ab = a * a + b * b) :
    opened (a + b) (completedParts ab (halfParts b) a) = (a + b) * (a + b) := by
  calc opened (a + b) (completedParts ab (halfParts b) a)
      = opened (a + b) ab + (b + b) * a := by
        simp only [opened, completedParts, halfParts]; ring
    _ = (a + b) * (a + b) := by rw [hab]; ring

/-- The parts of a ciphertext after its slots have been added up. -/
def summedParts (keys : UInt64 → cc.Parts) (rotations : List UInt64) (parts : cc.Parts) :
    cc.Parts :=
  rotations.foldl (fun parts rotation =>
    parts + switchedParts (rotated rotation.toNat parts.1, rotated rotation.toNat parts.2)
      (keys rotation)) parts

/-- Rotated parts open to the rotated slots under the rotated secret. -/
theorem opened_rotated (secret : cc.Slots) (rotation : Nat) (parts : cc.Parts) :
    opened (rotated rotation secret) (rotated rotation parts.1, rotated rotation parts.2) =
      rotated rotation (opened secret parts) := rfl

/-- Where each key switches from the rotated secret, the parts open to the gathered slots. -/
theorem opened_summedParts {secret : cc.Slots} {keys : UInt64 → cc.Parts} {rotations : List UInt64}
    (hKeys : ∀ rotation ∈ rotations,
      opened secret (keys rotation) = rotated rotation.toNat secret) (parts : cc.Parts) :
    opened secret (summedParts keys rotations parts) =
      gathered rotations (opened secret parts) := by
  induction rotations generalizing parts with
  | nil => rfl
  | cons rotation rest ih =>
      obtain ⟨hFirst, hRest⟩ := List.forall_mem_cons.mp hKeys
      have hStep := ih hRest (parts + switchedParts
        (rotated rotation.toNat parts.1, rotated rotation.toNat parts.2) (keys rotation))
      rw [opened_add, opened_switchedParts, hFirst, opened_rotated] at hStep
      exact hStep

end CipherRelay.Scheme.Context
