import CipherRelay.Json.Number
import CipherRelay.Proofs.Json.Values
import Mathlib.Data.List.TakeWhile
/-!
Whole numbers survive their digits: a number is read back from the text in which it is written, with
or without a sign, and that text is a number of JSON.
-/
namespace CipherRelay.Json

theorem toNat_digit {n : Nat} (h : n < 10) : (n.toUInt8 + 0x30).toNat = n + 0x30 := by
  simp [UInt8.toNat_add]
  omega

theorem isDigit_digit {n : Nat} (h : n < 10) : isDigit (n.toUInt8 + 0x30) := by
  have hDigit := toNat_digit h
  simp only [isDigit, Bool.and_eq_true, decide_eq_true_eq, UInt8.le_iff_toNat_le, hDigit]
  exact ⟨by simp, by simp; omega⟩

theorem isDigit_of_mem_digits (n : Nat) : ∀ byte ∈ digits n, isDigit byte := by
  fun_induction digits n with
  | case1 n hSmall => simpa using isDigit_digit hSmall
  | case2 n hLarge ih =>
      intro byte hMem
      rcases List.mem_append.mp hMem with hMem | hMem
      · exact ih byte hMem
      · rw [List.mem_singleton.mp hMem]
        exact isDigit_digit (Nat.mod_lt n (by omega))

/-- Reading goes on with what the first digits are worth. -/
theorem readDigits_append {first : Bytes} {value total : Nat}
    (hFirst : readDigits value first = some total) (second : Bytes) :
    readDigits value (first ++ second) = readDigits total second := by
  induction first generalizing value with
  | nil =>
      obtain rfl : value = total := by simpa [readDigits] using hFirst
      rfl
  | cons byte first ih =>
      by_cases hByte : isDigit byte
      · simp only [readDigits, hByte, if_true] at hFirst
        simp [readDigits, hByte, ih hFirst]
      · simp [readDigits, hByte] at hFirst

theorem readDigits_digits (n : Nat) : readDigits 0 (digits n) = some n := by
  fun_induction digits n with
  | case1 n hSmall => simp [readDigits, isDigit_digit hSmall, toNat_digit hSmall]
  | case2 n hLarge ih =>
      have hRest : n % 10 < 10 := Nat.mod_lt n (by omega)
      rw [readDigits_append ih]
      simp only [readDigits, isDigit_digit hRest, toNat_digit hRest, if_true]
      congr 1
      omega

/-- Only zero is written with a leading zero. -/
theorem head?_digits {n : Nat} (h : n ≠ 0) :
    ∃ first rest, digits n = first :: rest ∧ first ≠ 0x30 := by
  induction n using Nat.strongRecOn with
  | ind n ih =>
      rw [digits]
      split
      case isTrue hSmall =>
        refine ⟨n.toUInt8 + 0x30, [], rfl, fun hZero => h ?_⟩
        have hDigit := toNat_digit hSmall
        rw [hZero] at hDigit
        simp at hDigit
        omega
      case isFalse hLarge =>
        obtain ⟨first, rest, hDigits, hFirst⟩ := ih (n / 10) (by omega) (by omega)
        exact ⟨first, rest ++ [(n % 10).toUInt8 + 0x30], by simp [hDigits], hFirst⟩

theorem digits_zero : digits 0 = [0x30] := by
  rw [digits]
  rfl

/-- A number is read back from its digits. -/
theorem natural?_digits (n : Nat) : natural? (digits n) = some n := by
  by_cases hZero : n = 0
  · subst hZero
    rw [digits_zero]
    rfl
  · obtain ⟨first, rest, hDigits, hFirst⟩ := head?_digits hZero
    have hRead := readDigits_digits n
    rw [hDigits] at hRead ⊢
    unfold natural?
    split
    all_goals simp_all

/-- A row of digits without a leading zero is a number of JSON, with or without a sign. -/
theorem isNumber_of_isDigit {first : UInt8} {rest : Bytes} (hFirst : first ≠ 0x30)
    (hAll : ∀ byte ∈ first :: rest, isDigit byte) :
    isNumber (first :: rest) ∧ isNumber (0x2d :: first :: rest) := by
  have hDigit : isDigit first := hAll first (by simp)
  have hSign : first ≠ 0x2d := by
    rintro rfl
    simp [isDigit] at hDigit
  have hDropped : rest.dropWhile isDigit = [] :=
    List.dropWhile_eq_nil_iff.mpr fun byte hMem => hAll byte (by simp [hMem])
  have hFraction : (isDigit first && isFraction (rest.dropWhile isDigit)) = true := by
    rw [hDropped, hDigit]
    rfl
  constructor
  · unfold isNumber
    split
    all_goals simp_all
  · unfold isNumber
    split
    all_goals simp_all

/-- The digits of a number are a number of JSON, with or without a sign. -/
theorem isNumber_digits (n : Nat) : isNumber (digits n) ∧ isNumber (0x2d :: digits n) := by
  by_cases hZero : n = 0
  · subst hZero
    rw [digits_zero]
    exact ⟨rfl, rfl⟩
  · obtain ⟨first, rest, hDigits, hFirst⟩ := head?_digits hZero
    have hAll := isDigit_of_mem_digits n
    rw [hDigits] at hAll ⊢
    exact isNumber_of_isDigit hFirst hAll

/-- Digits may stand between quotes. -/
theorem quotable_digits (n : Nat) : Quotable (digits n) := by
  have hAll := isDigit_of_mem_digits n
  generalize digits n = text at hAll
  induction text with
  | nil => exact .nil
  | cons byte rest ih =>
      have hByte : isDigit byte := hAll byte (by simp)
      refine .plain ?_ ?_ ?_ (ih fun other hMem => hAll other (by simp [hMem]))
      · rintro rfl
        simp [isDigit] at hByte
      · rintro rfl
        simp [isDigit] at hByte
      · simp only [isDigit, Bool.and_eq_true, decide_eq_true_eq, UInt8.le_iff_toNat_le,
          UInt8.lt_iff_toNat_lt] at hByte ⊢
        simp at hByte ⊢
        omega

theorem isWritten_ofNat (n : Nat) : (ofNat n).IsWritten := by
  intro lexeme hMem
  obtain rfl : lexeme = .number (digits n) := by simpa [ofNat, lexemes] using hMem
  exact (isNumber_digits n).1

/-- A number below a bound is read back. -/
theorem below?_ofNat {n bound : Nat} (h : n < bound) : (ofNat n).below? bound = some n := by
  simp [below?, ofNat, natural?_digits, h]

/-- A number is written as a number is. -/
theorem isWritten_ofInt (v : Int) : (ofInt v).IsWritten := by
  intro lexeme hMem
  cases v with
  | ofNat n =>
      obtain rfl : lexeme = .number (digits n) := by simpa [ofInt, lexemes] using hMem
      exact (isNumber_digits n).1
  | negSucc n =>
      obtain rfl : lexeme = .number (0x2d :: digits (n + 1)) := by simpa [ofInt, lexemes] using hMem
      exact (isNumber_digits (n + 1)).2

/-- A whole number within bounds is read back. -/
theorem between?_ofInt {v least greatest : Int} (hLeast : least ≤ v) (hGreatest : v ≤ greatest) :
    (ofInt v).between? least greatest = some v := by
  have hRead : ∀ text, ofInt v = .number text → integer? text = some v := by
    intro text hText
    cases v with
    | ofNat n =>
        obtain rfl : digits n = text := by simpa [ofInt] using hText
        have hSign : ∀ rest, digits n ≠ 0x2d :: rest := by
          intro rest hDigits
          have hByte := isDigit_of_mem_digits n 0x2d (by simp [hDigits])
          simp [isDigit] at hByte
        unfold integer?
        split
        case h_1 rest hDigits => exact absurd hDigits (hSign rest)
        case h_2 => simp [natural?_digits]
    | negSucc n =>
        obtain rfl : 0x2d :: digits (n + 1) = text := by simpa [ofInt] using hText
        simp [integer?, natural?_digits]
  have hText : ∃ text, ofInt v = .number text := by cases v <;> exact ⟨_, rfl⟩
  obtain ⟨text, hText⟩ := hText
  simp [between?, hText, hRead text hText, hLeast, hGreatest]

end CipherRelay.Json
