import CipherRelay.Proofs.Threshold.Bob
import CipherRelay.Proofs.Threshold.KeyAgreement
/-!
What the parties come to and what they foresee. The expected results are plain arithmetic over any
number of slots, and inputs that are longer than that are cut off. The ciphertexts of such inputs,
under the keys of any three rounds, fuse to just these results. Bob, however, encrypts the inputs
as they are, so with fewer slots than inputs he gets no further than the end of round 3.
-/
namespace CipherRelay.Threshold

open Party Scheme

variable {ρ : Type} [RandomSource ρ] {cc : Context}

/-- The calls settle the keys. -/
theorem Rounds.Made.unique {first second third fourth : ρ} {rounds other : Rounds}
    (h : rounds.Made cc first second third fourth) (h' : other.Made cc first second third fourth) :
    rounds = other := by
  obtain ⟨alice, square, sums, bob, squares, half, joinedSums, product⟩ := rounds
  obtain ⟨alice', square', sums', bob', squares', half', joinedSums', product'⟩ := other
  obtain ⟨⟨_, hAlice⟩, ⟨_, hSquare⟩, ⟨_, hSums⟩, ⟨_, hBob⟩, hSquares, hHalf, hJoined, hProduct⟩ := h
  obtain ⟨⟨_, hAlice'⟩, ⟨_, hSquare'⟩, ⟨_, hSums'⟩, ⟨_, hBob'⟩, hSquares', hHalf', hJoined',
    hProduct'⟩ := h'
  cases hAlice.symm.trans hAlice'
  cases hSquare.symm.trans hSquare'
  cases hSums.symm.trans hSums'
  cases hBob.symm.trans hBob'
  cases hSquares.symm.trans hSquares'
  cases hHalf.symm.trans hHalf'
  cases hJoined.symm.trans hJoined'
  cases hProduct.symm.trans hProduct'
  rfl

/-- An input, cut off where the slots end. -/
def cut (cc : Context) (input : List Int64) : List Int64 :=
  input.take cc.ringDimension.toNat

/-- The inputs, cut off where the slots end, can be encrypted under the joint key. -/
theorem Draws.encrypts_cut (d : Draws cc) (h : cc.IsValid) (source : ρ) :
    ∃ first second third source₁ source₂ after,
      cc.encrypt d.bobKeys.publicKey (cut cc firstInput) source =
        .ok (cc.ciphertext (d.inputParts firstInput first)) source₁ ∧
      cc.encrypt d.bobKeys.publicKey (cut cc secondInput) source₁ =
        .ok (cc.ciphertext (d.inputParts secondInput second)) source₂ ∧
      cc.encrypt d.bobKeys.publicKey (cut cc thirdInput) source₂ =
        .ok (cc.ciphertext (d.inputParts thirdInput third)) after := by
  have hEach : ∀ (input : List Int64) (source : ρ), ∃ mask after,
      cc.encrypt d.bobKeys.publicKey (cut cc input) source =
        .ok (cc.ciphertext (d.inputParts input mask)) after := by
    intro input source
    obtain ⟨mask, after, hMask⟩ :=
      h.encrypt_eq_ok d.keyParts (List.length_take_le cc.ringDimension.toNat input) source
    rw [slotsOf_take] at hMask
    exact ⟨mask, after, hMask⟩
  obtain ⟨first, source₁, hFirst⟩ := hEach firstInput source
  obtain ⟨second, source₂, hSecond⟩ := hEach secondInput source₁
  obtain ⟨third, after, hThird⟩ := hEach thirdInput source₂
  exact ⟨first, second, third, source₁, source₂, after, hFirst, hSecond, hThird⟩

/-- Inputs that the slots do not hold are refused. -/
theorem Draws.encrypts_none (d : Draws cc) (h : cc.IsValid) (hFew : cc.ringDimension.toNat < 12)
    (source : ρ) :
    cc.encrypt d.rounds.bob.publicKey firstInput source =
        .error (.error (.dimensionMismatch cc.ringDimension 12)) source ∧
      inputs.mapM (cc.encrypt d.rounds.bob.publicKey) source =
        .error (.error (.dimensionMismatch cc.ringDimension 12)) source := by
  have hFirst : cc.encrypt d.rounds.bob.publicKey firstInput source =
      .error (.error (.dimensionMismatch cc.ringDimension 12)) source :=
    h.encrypt_eq_error d.keyParts (show _ < firstInput.length from hFew) source
  refine ⟨hFirst, ?_⟩
  rw [inputs, List.mapM_cons]
  exact Draw.bind_eq_error hFirst _

/-- Where the slots hold an input, nothing is cut off. -/
theorem cut_eq (hLarge : 12 ≤ cc.ringDimension.toNat) {input : List Int64}
    (hLength : input.length = 12) : cut cc input = input :=
  List.take_of_length_le (hLength.trans_le hLarge)

/-- What a party knows that can evaluate three ciphertexts with the keys of some rounds. -/
structure Knowledge.Holds (known : Knowledge) (cc : Context) (rounds : Rounds)
    (cts : List Ciphertext) : Prop where
  context : known.context = some cc
  multKey : known.multKey = some rounds.product
  sumKeys : known.sumKeys = some rounds.joinedSums
  cts : known.cts = cts

/-- Three ciphertexts that come to the expected results. Whichever party evaluates them, in whatever
state its other data are, gets the same results, and of each of these the lead share and the main
share fuse to what is expected. -/
def Rounds.Meets (cc : Context) (rounds : Rounds) (cts : List Ciphertext) : Prop :=
  ∃ results,
    (∀ (ρ : Type) (known : Knowledge) (source : ρ), known.Holds cc rounds cts →
      Knowledge.evaluate (known, source) =
        .ok () ({ known with results := some results }, source)) ∧
    ∀ operation, ∃ lead main fused,
      cc.leadShare rounds.bob.privateKey (results.get operation) = .ok lead ∧
      cc.mainShare rounds.alice.privateKey (results.get operation) = .ok main ∧
      cc.fuse lead main = .ok fused ∧
      expected operation cc.ringDimension.toNat cc.plaintextModulus = .ok fused

/-- The rounds of any draws meet what they are to give. -/
theorem Draws.meets (d : Draws cc) (h : cc.IsValid) : d.rounds.Meets cc d.ciphertexts := by
  refine ⟨d.results, fun ρ known source hHolds => ?_, fun operation => ?_⟩
  · obtain ⟨_, keys, multRnd1, sumRnd1, jointKey, multAB, _, _, _, earlier, verified, unrefuted⟩ :=
      known
    obtain ⟨rfl, rfl, rfl, rfl⟩ := hHolds
    simp only [Knowledge.evaluate, Action.data_bind, ciphertexts, rounds, Action.require_some,
      pure_bind, h.evalAdd_eq_ok, h.evalMult_eq_ok, h.evalSum_eq_ok, Action.engine_ok]
    rfl
  · rw [get_results]
    exact ⟨_, _, _, h.leadShare_eq_ok d.bob _, h.mainShare_eq_ok d.alice _, d.fuse_eq operation h,
      expected_eq_ok h operation⟩

/-- What Bob knows when the product key arrives: the context and the joint key. -/
structure Knowledge.Seals (known : Knowledge) (cc : Context) (rounds : Rounds) : Prop where
  context : known.context = some cc
  jointKey : known.jointKey = some rounds.bob.publicKey

/-- What comes of the inputs with the keys of some rounds. -/
structure Rounds.Foresees (cc : Context) (rounds : Rounds) (source : ρ) : Prop where
  /-- Where the slots hold the inputs, Bob encrypts them, and the ciphertexts come to the expected
  results. -/
  fits : 12 ≤ cc.ringDimension.toNat → ∃ ct1 ct2 ct3 after, rounds.Meets cc [ct1, ct2, ct3] ∧
    inputs.mapM (cc.encrypt rounds.bob.publicKey) source = .ok [ct1, ct2, ct3] after ∧
    ∀ known : Knowledge, known.Seals cc rounds →
      Bob.onFinal (.send .rnd3EvalMultFinal (Artifact.encode rounds.product)) (known, source) =
        .ok (.send (.send .ct1 (Artifact.encode ct1)) .sendCt1)
          ({ known with multKey := some rounds.product, cts := [ct1, ct2, ct3] }, after)
  /-- Where they do not, Bob gets an error and no ciphertext. -/
  refuses : cc.ringDimension.toNat < 12 →
    inputs.mapM (cc.encrypt rounds.bob.publicKey) source =
      .error (.error (.dimensionMismatch cc.ringDimension 12)) source ∧
    ∀ known : Knowledge, known.Seals cc rounds →
      Bob.onFinal (.send .rnd3EvalMultFinal (Artifact.encode rounds.product)) (known, source) =
        .error (.error (.engine (.dimensionMismatch cc.ringDimension 12)))
          ({ known with multKey := some rounds.product }, source)
  /-- Cut off where the slots end, the inputs come to the expected results with any slots. -/
  cut : ∃ cts after, rounds.Meets cc cts ∧
    (inputs.map (cut cc)).mapM (cc.encrypt rounds.bob.publicKey) source = .ok cts after

/-- And what the operations should decrypt to is what they decrypt to. -/
theorem Draws.foresees (d : Draws cc) (h : cc.IsValid) (source : ρ) :
    d.rounds.Foresees cc source := by
  obtain ⟨first, second, third, source₁, source₂, after, hFirst, hSecond, hThird⟩ :=
    d.encrypts_cut h source
  have hMeets := Draws.meets { d with first, second, third } h
  have hCut : (inputs.map (cut cc)).mapM (cc.encrypt d.bobKeys.publicKey) source =
      .ok (Draws.ciphertexts { d with first, second, third }) after := by
    simp only [inputs, List.map_cons, List.map_nil, List.mapM_cons, List.mapM_nil, bind_assoc,
      pure_bind]
    rw [Draw.bind_eq hFirst, Draw.bind_eq hSecond, Draw.bind_eq hThird]
    rfl
  constructor
  case fits =>
    intro hLarge
    have hInputs : inputs.map (Threshold.cut cc) = inputs := by
      rw [inputs, List.map_cons, List.map_cons, List.map_cons, List.map_nil, cut_eq hLarge rfl,
        cut_eq hLarge rfl, cut_eq hLarge rfl]
    rw [hInputs] at hCut
    rw [cut_eq hLarge rfl] at hFirst hSecond hThird
    refine ⟨_, _, _, after, hMeets, hCut, fun known hSeals => ?_⟩
    exact Bob.onFinal_of_encrypted source _ hSeals.context hSeals.jointKey hFirst hSecond hThird
  case refuses =>
    intro hFew
    obtain ⟨hFirst, hAll⟩ := d.encrypts_none h hFew source
    exact ⟨hAll, fun known hSeals =>
      Bob.onFinal_of_refused source _ hSeals.context hSeals.jointKey hFirst⟩
  case cut => exact ⟨_, after, hMeets, hCut⟩

/-- With the keys of any three rounds, the ciphertexts of the inputs come to what both parties
foresee, where Bob can encrypt the inputs at all. -/
theorem joint_results_foreseen {params : ContextParams}
    (hContext : Context.generate params = .ok cc) {first second third fourth : ρ} {rounds : Rounds}
    (hMade : rounds.Made cc first second third fourth) (source : ρ) :
    rounds.Foresees cc source := by
  obtain ⟨_, hAlice⟩ := hMade.alice
  have h := (Context.isGenerated_of_generate hContext).isValid (Context.hasRoom_of_keyGen hAlice)
  obtain ⟨d, hDrawn⟩ := exists_made h first second third fourth
  rw [hMade.unique hDrawn]
  exact d.foresees h source

/-- There are keys of three rounds over sixteen slots, and the modulus may be small. -/
theorem joint_results_foreseen_sample :
    Context.generate ⟨16, 6⟩ = .ok ⟨16, 6⟩ ∧ ∃ rounds : Rounds,
      rounds.Made ⟨16, 6⟩ (⟨1⟩ : Congruential) ⟨2⟩ ⟨3⟩ ⟨4⟩ ∧
        rounds.Foresees ⟨16, 6⟩ (⟨5⟩ : Congruential) := by
  have hContext : Context.generate ⟨16, 6⟩ = .ok ⟨16, 6⟩ := by decide
  have h := (Context.isGenerated_of_generate hContext).isValid (by decide)
  obtain ⟨d, hMade⟩ := exists_made h (⟨1⟩ : Congruential) ⟨2⟩ ⟨3⟩ ⟨4⟩
  exact ⟨hContext, d.rounds, hMade, joint_results_foreseen hContext hMade ⟨5⟩⟩

/-- Over two slots the rounds succeed and results are expected, but Bob cannot encrypt inputs. -/
theorem two_slots_hold_no_inputs :
    Context.generate ⟨2, 65537⟩ = .ok ⟨2, 65537⟩ ∧ expected .add 2 65537 = .ok [4, 4] ∧
      ∃ rounds : Rounds, rounds.Made ⟨2, 65537⟩ (⟨1⟩ : Congruential) ⟨2⟩ ⟨3⟩ ⟨4⟩ ∧
        inputs.mapM ((⟨2, 65537⟩ : Context).encrypt rounds.bob.publicKey) (⟨5⟩ : Congruential) =
          .error (.error (.dimensionMismatch 2 12)) ⟨5⟩ := by
  have hContext : Context.generate ⟨2, 65537⟩ = .ok ⟨2, 65537⟩ := by decide
  have h := (Context.isGenerated_of_generate hContext).isValid (by decide)
  obtain ⟨d, hMade⟩ := exists_made h (⟨1⟩ : Congruential) ⟨2⟩ ⟨3⟩ ⟨4⟩
  have hRefused := d.encrypts_none h (by decide) (⟨5⟩ : Congruential)
  exact ⟨hContext, by decide, d.rounds, hMade, hRefused.2⟩

end CipherRelay.Threshold
