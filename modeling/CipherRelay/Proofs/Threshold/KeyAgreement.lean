import CipherRelay.Proofs.Scheme.Entries
import CipherRelay.Proofs.Threshold.Draws
/-!
Key agreement. In three rounds two parties make a public key, a product key and a key for each
rotation, and none of them learns the other one's secret. Slot by slot modulo the plaintext modulus,
all these keys belong to the sum of both secrets: the public key opens to zero, the product key to
the square of the joint secret, and the key for a rotation to the rotated joint secret. The keys of
the first round stand in the same relation to the first party's secret.
-/
namespace CipherRelay.Scheme.Context

variable {cc : Context}

namespace IsValid

end IsValid

end CipherRelay.Scheme.Context

namespace CipherRelay.Threshold

open Scheme

variable {ρ : Type} [RandomSource ρ] {cc : Context}

/-- All keys of the three rounds. -/
structure Rounds where
  alice : KeyPair
  /-- Alice's keys of round 1. -/
  square : SwitchKey
  sums : RotationKeys
  bob : KeyPair
  /-- Bob's keys of round 2. -/
  squares : SwitchKey
  half : SwitchKey
  joinedSums : RotationKeys
  /-- The product key, which Alice completes in round 3. -/
  product : SwitchKey

/-- The calls by which the keys of three rounds are made. Each of those that draw has a source of
its own. -/
structure Rounds.Made (cc : Context) (first second third fourth : ρ) (rounds : Rounds) : Prop where
  alice : ∃ after, cc.keyGen first = .ok rounds.alice after
  square : ∃ after, cc.productKey rounds.alice.privateKey second = .ok rounds.square after
  sums : ∃ after, cc.sumKeys rounds.alice.privateKey third = .ok rounds.sums after
  bob : ∃ after, cc.jointKeyGen rounds.alice.publicKey fourth = .ok rounds.bob after
  squares : cc.productKeyAB rounds.bob.privateKey rounds.square = .ok rounds.squares
  half : cc.productKeyBAB rounds.bob.privateKey rounds.squares = .ok rounds.half
  joinedSums : cc.sumKeysJoin rounds.bob.privateKey rounds.sums = .ok rounds.joinedSums
  product : cc.productKeyFinal rounds.alice.privateKey rounds.squares rounds.half =
    .ok rounds.product

namespace Draws

variable (d : Draws cc)

/-- The keys of three rounds in which these slots are drawn. -/
def rounds : Rounds where
  alice := d.aliceKeys
  square := cc.switchKey d.squareParts
  sums := cc.rotationKeys d.rotatedParts
  bob := d.bobKeys
  squares := cc.switchKey d.squaresParts
  half := cc.switchKey (Context.halfParts d.bob)
  joinedSums := cc.rotationKeys d.sumParts
  product := cc.switchKey d.productParts

end Draws

/-- From whatever sources is drawn, the keys of the three rounds are those of some slots. -/
theorem exists_made (h : cc.IsValid) (first second third fourth : ρ) :
    ∃ d : Draws cc, d.rounds.Made cc first second third fourth := by
  obtain ⟨alice, mask, afterAlice, hAlice⟩ := h.keyGen_eq_ok first
  obtain ⟨product, afterSquare, hSquare⟩ := h.productKey_eq_ok alice second
  obtain ⟨sums, afterSums, hSums⟩ := h.sumKeys_eq_ok alice third
  obtain ⟨bob, afterBob, hBob⟩ := h.jointKeyGen_eq_ok (Context.keyParts alice mask) fourth
  refine ⟨{ alice, mask, product, sums, bob, first := 0, second := 0, third := 0 }, ?_⟩
  exact
    { alice := ⟨afterAlice, hAlice⟩
      square := ⟨afterSquare, hSquare⟩
      sums := ⟨afterSums, hSums⟩
      bob := ⟨afterBob, hBob⟩
      squares := h.productKeyAB_eq_ok bob _
      half := h.productKeyBAB_eq_ok bob _
      joinedSums := h.sumKeysJoin_eq_ok bob _
      product := h.productKeyFinal_eq_ok alice _ _ }

end CipherRelay.Threshold
