import CipherRelay.Proofs.Exchange.Steps
import CipherRelay.Proofs.Threshold.Alice
import CipherRelay.Proofs.Threshold.Bob
import Mathlib.Tactic.IntervalCases
/-!
Alice and Bob play their parts towards each other. Each action does what the conduct says, and each
draw is made while the other party cannot have reached a state that depends on it.
-/
namespace CipherRelay.Threshold

open Exchange Party Scheme

variable {ρ : Type} [RandomSource ρ] {cc : Context} {d : Draws cc} {session : SessionId}

/-- Bob cannot have Alice's public key before she hands it over, and until then nothing of him
depends on what she draws. -/
theorem alice_keeps_keys (alice mask product : cc.Slots) (sums : UInt64 → cc.Slots) :
    (Threshold.alice cc : Conduct _ _ _ ρ).Keeps (Threshold.bob cc : Conduct _ _ _ ρ)
      (setting cc session) 1 d { d with alice, mask, product, sums } := by
  refine .inr ⟨2, ?_, fun j hj => ?_, fun kind hKind => ?_⟩
  · rw [course_alice, course_bob]
    decide
  · interval_cases j <;> rfl
  · simp [course_alice, course_bob, aliceCourse, bobCourse] at hKind

/-- Alice cannot have the joint key before Bob hands it over. -/
theorem bob_keeps_secret (bob : cc.Slots) :
    (Threshold.bob cc : Conduct _ _ _ ρ).Keeps (Threshold.alice cc : Conduct _ _ _ ρ)
      (setting cc session) 2 d { d with bob } := by
  refine .inr ⟨5, ?_, fun j hj => ?_, fun kind hKind => ?_⟩
  · rw [course_alice, course_bob]
    decide
  · interval_cases j <;> rfl
  · simp [course_alice, course_bob, aliceCourse, bobCourse] at hKind
    rcases hKind with rfl | rfl | rfl <;> rfl

/-- Alice cannot have a ciphertext before Bob hands one over. -/
theorem bob_keeps_masks (first second third : cc.Slots) :
    (Threshold.bob cc : Conduct _ _ _ ρ).Keeps (Threshold.alice cc : Conduct _ _ _ ρ)
      (setting cc session) 9 d { d with first, second, third } := by
  refine .inr ⟨10, ?_, fun j hj => ?_, fun kind hKind => ?_⟩
  · rw [course_alice, course_bob]
    decide
  · interval_cases j <;> rfl
  · have hInputs : ¬OfInputs kind := by
      rintro hInputs
      cases kind <;>
        simp [course_alice, course_bob, aliceCourse, bobCourse, OfInputs] at hKind hInputs
    cases kind <;> first | rfl | exact absurd trivial hInputs

theorem fits_alice (h : cc.IsGenerated) :
    (Threshold.alice cc : Conduct _ _ _ ρ).Fits (Threshold.bob cc : Conduct _ _ _ ρ)
      (setting cc session) where
  onMessage _ _ _ := rfl
  view _ _ := rfl
  step := Alice.get?_table
  start := ⟨rfl, rfl⟩
  suits := show Suits .alice aliceCourse bobCourse by decide
  advances i s hPath hStore hFetch d source := by
    rw [course_alice] at hStore hFetch
    -- Alice has had room for the key that she has handed over.
    have hValid : .store .rnd1PubKey ∈ aliceCourse.take (i + 1) → cc.IsValid :=
      fun hMem => h.isValid (hStore _ hMem).1
    have hLarge : ∀ operation, .fetch (.partialLead operation) ∈ aliceCourse.take (i + 1) →
        12 ≤ cc.ringDimension.toNat :=
      fun operation hMem => (hFetch _ hMem _ (List.mem_singleton.mpr rfl)).2 trivial
    match i, hPath, hValid, hLarge with
    | 0, rfl, _, _ => exact .inl ⟨d, _, source, rfl, rfl, nofun, .inl rfl⟩
    | 1, rfl, _, _ =>
        by_cases hRoom : cc.HasRoom
        · obtain ⟨alice, mask, product, sums, after, hContext⟩ :=
            Alice.onContext_eq d source (h.isValid hRoom)
          exact .inl ⟨_, _, after, hContext, rfl, fun | _, rfl => ⟨hRoom, nofun⟩,
            alice_keeps_keys alice mask product sums⟩
        · exact .inr (.inl ⟨hRoom, source, Alice.onContext_eq_crash source hRoom _⟩)
    | 2, rfl, hValid, _ =>
        have h := hValid (by decide)
        exact .inl ⟨d, _, source, Alice.onPubKeyStored_eq d source (.bare (.ack .rnd1PubKey)), rfl,
          fun | _, rfl => ⟨h.hasRoom, nofun⟩, .inl rfl⟩
    | 3, rfl, hValid, _ =>
        have h := hValid (by decide)
        exact .inl ⟨d, _, source, Alice.onMultKeyStored_eq d source (.bare (.ack .rnd1EvalMultKey)),
          rfl, fun | _, rfl => ⟨h.hasRoom, nofun⟩, .inl rfl⟩
    | 4, rfl, _, _ => exact .inl ⟨d, _, source, rfl, rfl, nofun, .inl rfl⟩
    | 5, rfl, _, _ =>
        exact .inl ⟨d, _, source, Alice.onSharedKey_eq d source, rfl, nofun, .inl rfl⟩
    | 6, rfl, _, _ => exact .inl ⟨d, _, source, Alice.onMultAB_eq d source, rfl, nofun, .inl rfl⟩
    | 7, rfl, hValid, _ =>
        have h := hValid (by decide)
        exact .inl ⟨d, _, source, Alice.onMultBAB_eq d source h, rfl,
          fun | _, rfl => ⟨h.hasRoom, nofun⟩, .inl rfl⟩
    | 8, rfl, _, _ => exact .inl ⟨d, _, source, rfl, rfl, nofun, .inl rfl⟩
    | 9, rfl, _, _ => exact .inl ⟨d, _, source, Alice.onSumKeys_eq d source, rfl, nofun, .inl rfl⟩
    | 10, rfl, _, _ =>
        exact .inl ⟨d, _, source, Alice.onCiphertext_first d source, rfl, nofun, .inl rfl⟩
    | 11, rfl, _, _ =>
        exact .inl ⟨d, _, source, Alice.onCiphertext_second d source, rfl, nofun, .inl rfl⟩
    | 12, rfl, hValid, _ =>
        exact .inl ⟨d, _, source, Alice.onCiphertext_third d source (hValid (by decide)), rfl,
          nofun, .inl rfl⟩
    | 13, rfl, hValid, hLarge =>
        have h := hValid (by decide)
        have hLarge := hLarge .add (by decide)
        exact .inl ⟨d, _, source, Alice.onLead_eq d source .add h, rfl,
          fun | _, rfl => ⟨h.hasRoom, fun _ => hLarge⟩, .inl rfl⟩
    | 14, rfl, _, _ => exact .inl ⟨d, _, source, rfl, rfl, nofun, .inl rfl⟩
    | 15, rfl, hValid, hLarge =>
        have h := hValid (by decide)
        have hLarge := hLarge .mult (by decide)
        exact .inl ⟨d, _, source, Alice.onLead_eq d source .mult h, rfl,
          fun | _, rfl => ⟨h.hasRoom, fun _ => hLarge⟩, .inl rfl⟩
    | 16, rfl, _, _ => exact .inl ⟨d, _, source, rfl, rfl, nofun, .inl rfl⟩
    | 17, rfl, hValid, hLarge =>
        have h := hValid (by decide)
        have hLarge := hLarge .sum (by decide)
        exact .inl ⟨d, _, source, Alice.onLead_eq d source .sum h, rfl,
          fun | _, rfl => ⟨h.hasRoom, fun _ => hLarge⟩, .inl rfl⟩
    | 18, rfl, _, _ => exact .inl ⟨d, _, source, rfl, rfl, nofun, .inl rfl⟩
    | 19, rfl, _, _ => exact .inl ⟨d, _, source, rfl, rfl, nofun, .inl rfl⟩

theorem fits_bob (h : cc.IsGenerated) :
    (Threshold.bob cc : Conduct _ _ _ ρ).Fits (Threshold.alice cc : Conduct _ _ _ ρ)
      (setting cc session) where
  onMessage _ _ _ := rfl
  view _ _ := rfl
  step := Bob.get?_table
  start := ⟨rfl, rfl⟩
  suits := show Suits .bob bobCourse aliceCourse by decide
  advances i s hPath hStore hFetch d source := by
    rw [course_bob] at hStore hFetch
    -- Bob needs no room before he has Alice's key, and then there is some.
    have hValid : .fetch .rnd1PubKey ∈ bobCourse.take (i + 1) → cc.IsValid :=
      fun hMem => h.isValid (hFetch _ hMem _ (List.mem_singleton.mpr rfl)).1
    have hLarge : .store .ct1 ∈ bobCourse.take (i + 1) → 12 ≤ cc.ringDimension.toNat :=
      fun hMem => (hStore _ hMem).2 trivial
    match i, hPath, hValid, hLarge with
    | 0, rfl, _, _ => exact .inl ⟨d, _, source, rfl, rfl, nofun, .inl rfl⟩
    | 1, rfl, _, _ => exact .inl ⟨d, _, source, Bob.onContext_eq d source, rfl, nofun, .inl rfl⟩
    | 2, rfl, hValid, _ =>
        obtain ⟨bob, after, hKeys⟩ := Bob.onPubKey_eq d source (hValid (by decide))
        exact .inl ⟨_, _, after, hKeys, rfl, nofun, bob_keeps_secret bob⟩
    | 3, rfl, _, _ => exact .inl ⟨d, _, source, Bob.onMultKey_eq d source, rfl, nofun, .inl rfl⟩
    | 4, rfl, hValid, _ =>
        have h := hValid (by decide)
        exact .inl ⟨d, _, source, Bob.onSumKeys_eq d source, rfl,
          fun | _, rfl => ⟨h.hasRoom, nofun⟩, .inl rfl⟩
    | 5, rfl, hValid, _ =>
        have h := hValid (by decide)
        exact .inl ⟨d, _, source, Bob.onSharedKeyStored_eq d source h (.bare (.ack .rnd2SharedKey)),
          rfl, fun | _, rfl => ⟨h.hasRoom, nofun⟩, .inl rfl⟩
    | 6, rfl, hValid, _ =>
        have h := hValid (by decide)
        exact .inl ⟨d, _, source, Bob.onABStored_eq d source h (.bare (.ack .rnd2EvalMultAB)), rfl,
          fun | _, rfl => ⟨h.hasRoom, nofun⟩, .inl rfl⟩
    | 7, rfl, hValid, _ =>
        have h := hValid (by decide)
        exact .inl ⟨d, _, source, Bob.onBABStored_eq d source h (.bare (.ack .rnd2EvalMultBAB)),
          rfl, fun | _, rfl => ⟨h.hasRoom, nofun⟩, .inl rfl⟩
    | 8, rfl, _, _ => exact .inl ⟨d, _, source, rfl, rfl, nofun, .inl rfl⟩
    | 9, rfl, hValid, _ =>
        have h := hValid (by decide)
        by_cases hSlots : 12 ≤ cc.ringDimension.toNat
        · obtain ⟨first, second, third, after, hFinal⟩ := Bob.onFinal_eq d source h hSlots
          exact .inl ⟨_, _, after, hFinal, rfl, fun | _, rfl => ⟨h.hasRoom, fun _ => hSlots⟩,
            bob_keeps_masks first second third⟩
        · exact .inr (.inr ⟨Nat.lt_of_not_le hSlots,
            Bob.onFinal_eq_error d source h (Nat.lt_of_not_le hSlots)⟩)
    | 10, rfl, hValid, hLarge =>
        exact .inl ⟨d, _, source, Bob.onCiphertextStored_first d source, rfl,
          fun | _, rfl => ⟨(hValid (by decide)).hasRoom, fun _ => hLarge (by decide)⟩, .inl rfl⟩
    | 11, rfl, hValid, hLarge =>
        exact .inl ⟨d, _, source, Bob.onCiphertextStored_second d source, rfl,
          fun | _, rfl => ⟨(hValid (by decide)).hasRoom, fun _ => hLarge (by decide)⟩, .inl rfl⟩
    | 12, rfl, hValid, hLarge =>
        have h := hValid (by decide)
        exact .inl ⟨d, _, source, Bob.onCiphertextStored_third d source h, rfl,
          fun | _, rfl => ⟨h.hasRoom, fun _ => hLarge (by decide)⟩, .inl rfl⟩
    | 13, rfl, _, _ => exact .inl ⟨d, _, source, rfl, rfl, nofun, .inl rfl⟩
    | 14, rfl, hValid, hLarge =>
        have h := hValid (by decide)
        have hLarge := hLarge (by decide)
        exact .inl ⟨d, _, source, Bob.onMain_next d source .add h rfl, rfl,
          fun | _, rfl => ⟨h.hasRoom, fun _ => hLarge⟩, .inl rfl⟩
    | 15, rfl, _, _ => exact .inl ⟨d, _, source, rfl, rfl, nofun, .inl rfl⟩
    | 16, rfl, hValid, hLarge =>
        have h := hValid (by decide)
        have hLarge := hLarge (by decide)
        exact .inl ⟨d, _, source, Bob.onMain_next d source .mult h rfl, rfl,
          fun | _, rfl => ⟨h.hasRoom, fun _ => hLarge⟩, .inl rfl⟩
    | 17, rfl, _, _ => exact .inl ⟨d, _, source, rfl, rfl, nofun, .inl rfl⟩
    | 18, rfl, hValid, _ =>
        exact .inl ⟨d, _, source, Bob.onMain_last d source (hValid (by decide)), rfl, nofun,
          .inl rfl⟩

/-- Alice and Bob fit each other. -/
theorem partners (session : SessionId) (h : cc.IsGenerated) :
    (Threshold.alice cc : Conduct _ _ _ ρ).Partners (Threshold.bob cc : Conduct _ _ _ ρ)
      (setting cc session) where
  fits := fits_alice h
  fits' := fits_bob h
  roles := show Role.alice ≠ .bob by decide
  derives hFetch := by
    rw [course_alice] at hFetch
    exact absurd hFetch (by decide)
  derives' hFetch := by
    rw [course_bob] at hFetch
    exact absurd hFetch (by decide)

end CipherRelay.Threshold
