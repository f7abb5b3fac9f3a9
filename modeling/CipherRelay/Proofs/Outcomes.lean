import CipherRelay.Random
import Mathlib.Data.List.FinRange
/-!
Outcomes in general. What is said here holds of any computation that can stop early, whatever its
values and errors stand for: how its parts follow each other, what comes of a whole list, and when
there is memory for what is drawn.
-/
namespace CipherRelay

variable {ε α β : Type}

/-- A result that follows from what is right with an input, or else from what is wrong with it,
tells which. -/
theorem result_eq_iff {result : Except ε α} {right : α → Prop} {wrong : ε → Prop}
    (hRight : ∀ value, right value → result = .ok value)
    (hWrong : ∀ error, wrong error → result = .error error)
    (hEither : (∃ value, right value) ∨ ∃ error, wrong error) :
    (∀ value, result = .ok value ↔ right value) ∧
      ∀ error, result = .error error ↔ wrong error := by
  refine ⟨fun value => ⟨fun h => ?_, hRight value⟩, fun error => ⟨fun h => ?_, hWrong error⟩⟩
  · rcases hEither with ⟨other, hOther⟩ | ⟨error, hError⟩
    · rw [hRight other hOther] at h
      cases h
      exact hOther
    · rw [hWrong error hError] at h
      cases h
  · rcases hEither with ⟨value, hValue⟩ | ⟨other, hOther⟩
    · rw [hRight value hValue] at h
      cases h
    · rw [hWrong other hOther] at h
      cases h
      exact hOther

/-- A computation that succeeds on each item succeeds on the list. -/
theorem mapM_eq_ok {f : α → Except ε β} {g : α → β} {list : List α}
    (h : ∀ a ∈ list, f a = .ok (g a)) : list.mapM f = .ok (list.map g) := by
  induction list with
  | nil => rfl
  | cons first rest ih =>
      rw [List.mapM_cons, h first (by simp), ih fun a hMem => h a (by simp [hMem])]
      rfl

theorem mapM_ofFn {n : Nat} {f : α → Except ε β} {slot : Fin n → α} {g : Fin n → β}
    (h : ∀ i, f (slot i) = .ok (g i)) : (List.ofFn slot).mapM f = .ok (List.ofFn g) := by
  rw [List.ofFn_eq_map, List.mapM_map, List.ofFn_eq_map]
  exact mapM_eq_ok fun i _ => h i

theorem Word.reserve_eq_ok {count : Nat} (h : count ≤ Word.capacity) :
    Word.reserve count = .ok () :=
  if_pos h

namespace Draw

variable {ρ : Type}

/-- The rest of a computation goes on with the source that the first part leaves. -/
theorem bind_eq {x : Draw ρ ε α} {source after : ρ} {a : α} (h : x source = .ok a after)
    (f : α → Draw ρ ε β) : (x >>= f) source = f a after := by
  simp only [bind, EStateM.bind, h]

/-- A computation fails with its first part. -/
theorem bind_eq_error {x : Draw ρ ε α} {source after : ρ} {failure : Failure ε}
    (h : x source = .error failure after) (f : α → Draw ρ ε β) :
    (x >>= f) source = .error failure after := by
  simp only [bind, EStateM.bind, h]

variable [RandomSource ρ]

/-- Numbers are drawn below a bound that is not zero, as many as are asked for. -/
theorem mapM_below_eq_ok (count : Nat) {bound : UInt64} (hBound : bound ≠ 0) (source : ρ) :
    ∃ list after, ((List.replicate count bound).mapM below : Draw ρ ε _) source = .ok list after ∧
      list.length = count ∧ ∀ x ∈ list, x < bound := by
  induction count generalizing source with
  | zero => exact ⟨[], source, rfl, rfl, by simp⟩
  | succ count ih =>
      obtain ⟨list, after, hDraw, hLength, hBelow⟩ := ih (RandomSource.next source).2
      refine ⟨(RandomSource.next source).1 % bound :: list, after, ?_, by simp [hLength], ?_⟩
      · have hFirst : (below bound : Draw ρ ε UInt64) source =
            .ok ((RandomSource.next source).1 % bound) (RandomSource.next source).2 := by
          simp [below, hBound]
        rw [List.replicate_succ, List.mapM_cons, bind_eq hFirst, bind_eq hDraw]
        rfl
      · simp only [List.mem_cons, forall_eq_or_imp]
        exact ⟨UInt64.mod_lt _ (UInt64.pos_iff_ne_zero.mpr hBound), hBelow⟩

/-- So they are in a vector that memory can hold. -/
theorem vector_eq_ok {count : Nat} (hCount : count ≤ Word.capacity) {bound : UInt64}
    (hBound : bound ≠ 0) (source : ρ) :
    ∃ list after, (vector count bound : Draw ρ ε (List UInt64)) source = .ok list after ∧
      list.length = count ∧ ∀ x ∈ list, x < bound := by
  obtain ⟨list, after, hDraw, hList⟩ := mapM_below_eq_ok (ε := ε) count hBound source
  refine ⟨list, after, ?_, hList⟩
  rw [vector, Word.reserve_eq_ok hCount]
  exact hDraw

/-- No word is drawn for a vector that memory cannot hold. -/
theorem vector_eq_crash {count : Nat} (hCount : ¬count ≤ Word.capacity) (bound : UInt64)
    (source : ρ) :
    (vector count bound : Draw ρ ε (List UInt64)) source = .error (.crash .capacity) source := by
  rw [vector, Word.reserve, if_neg hCount]
  rfl

end Draw

end CipherRelay
