import CipherRelay.Proofs.Outcomes
import CipherRelay.Text.Blank
import CipherRelay.Text.Numeral
import Mathlib.Data.List.DropRight
/-!
Which texts are numerals. Trimming a text leaves what stands between the blanks at its ends. A
numeral is a row of digits, with a plus sign before it or without; it is read exactly when its value
is within the limit, and else the error tells what came first, a character that does not belong
there or the digit that takes the value beyond the limit.
-/
namespace CipherRelay.Text

section Trim

variable {text core : List Char}

/-- What stands between the blanks at both ends of a text. -/
structure IsCore (text core : List Char) : Prop where
  around : ∃ front back, text = front ++ core ++ back ∧ ∀ c ∈ front ++ back, isBlank c
  first : ∀ c, core.head? = some c → isBlank c = false
  last : ∀ c, core.getLast? = some c → isBlank c = false

theorem trim_eq_rdropWhile (text : List Char) :
    trim text = (text.dropWhile isBlank).rdropWhile isBlank := rfl

/-- Blanks are dropped up to the first character that is none. -/
theorem dropWhile_blanks {blanks rest : List Char} (hBlanks : ∀ c ∈ blanks, isBlank c)
    (hRest : ∀ c, rest.head? = some c → isBlank c = false) :
    (blanks ++ rest).dropWhile isBlank = rest := by
  rw [List.dropWhile_append_of_pos hBlanks]
  cases rest with
  | nil => rfl
  | cons c rest => rw [List.dropWhile_cons_of_neg (by simpa using hRest c rfl)]

/-- What is left between the blanks has none at its ends. -/
theorem isCore_trim (text : List Char) : IsCore text (trim text) where
  around := by
    refine ⟨text.takeWhile isBlank, (text.dropWhile isBlank).rtakeWhile isBlank, ?_, ?_⟩
    · rw [List.append_assoc, trim_eq_rdropWhile, List.rdropWhile_append_rtakeWhile,
        List.takeWhile_append_dropWhile]
    · intro c hMem
      rcases List.mem_append.mp hMem with hMem | hMem
      · exact List.mem_takeWhile_imp hMem
      · exact List.mem_rtakeWhile_imp hMem
  first c hFirst := by
    -- Dropping at the end keeps the first character, unless nothing is left.
    obtain ⟨rest, hRest⟩ : trim text <+: text.dropWhile isBlank :=
      List.rdropWhile_prefix isBlank _
    have hHead : (text.dropWhile isBlank).head? = some c := by
      rw [← hRest, List.head?_append, hFirst]
      rfl
    have hNot := List.head?_dropWhile_not isBlank text
    rwa [hHead] at hNot
  last c hLast := by
    have hSome : trim text ≠ [] := by
      intro hNil
      rw [hNil] at hLast
      cases hLast
    have hNot : ¬isBlank ((trim text).getLast hSome) := List.rdropWhile_last_not isBlank _ hSome
    rw [List.getLast?_eq_some_getLast hSome, Option.some.injEq] at hLast
    simpa [hLast] using hNot

/-- Trimming takes the blanks at the ends, all of them and nothing else. -/
theorem trim_eq_iff : trim text = core ↔ IsCore text core := by
  refine ⟨fun h => h ▸ isCore_trim text, fun ⟨⟨front, back, hText, hBlanks⟩, hFirst, hLast⟩ => ?_⟩
  subst hText
  have hFront : ∀ c ∈ front, isBlank c := fun c hMem => hBlanks c (List.mem_append_left _ hMem)
  have hBack : ∀ c ∈ back, isBlank c := fun c hMem => hBlanks c (List.mem_append_right _ hMem)
  have hReverse : (core ++ back).rdropWhile isBlank = core := by
    rw [List.rdropWhile, List.reverse_append, dropWhile_blanks, List.reverse_reverse]
    · simpa using hBack
    · simpa using hLast
  rw [trim_eq_rdropWhile, List.append_assoc]
  cases core with
  | nil =>
      have hNone : (front ++ back).dropWhile isBlank = [] := List.dropWhile_eq_nil_iff.mpr hBlanks
      rw [List.nil_append, hNone]
      rfl
  | cons c rest => rw [dropWhile_blanks hFront (by simpa using hFirst), hReverse]

end Trim

/-- The value of a row of digits. -/
def worth (digits : List Char) : Nat :=
  Nat.ofDigitChars 10 digits 0

/-- A numeral without its plus sign. -/
def unsigned : List Char → List Char
  | '+' :: rest => rest
  | text => text

/-- A numeral and its value: digits, with a plus sign before them or without. -/
def IsNumeral (text : List Char) (n : Nat) : Prop :=
  unsigned text ≠ [] ∧ (∀ c ∈ unsigned text, c.isDigit) ∧ n = worth (unsigned text)

/-- What is wrong with a text that is no numeral within the limit. -/
inductive Misread (limit : Nat) : List Char → NumeralError → Prop
  | empty : Misread limit [] .empty
  | sign : Misread limit ['+'] .invalidDigit
  /-- A character is no digit, and what the digits before it are worth is within the limit. -/
  | stray {text digits rest : List Char} {c : Char} (hText : unsigned text = digits ++ c :: rest)
      (hDigits : ∀ c ∈ digits, c.isDigit) (hFits : worth digits ≤ limit)
      (hStray : c.isDigit = false) : Misread limit text .invalidDigit
  /-- The digits are worth too much before anything else is wrong. -/
  | large {text digits rest : List Char} (hText : unsigned text = digits ++ rest)
      (hDigits : ∀ c ∈ digits, c.isDigit) (hLarge : limit < worth digits) :
      Misread limit text .tooLarge

section Digits

variable {limit value n : Nat} {text digits rest : List Char} {cause : NumeralError}

theorem digit?_of_isDigit {c : Char} (h : c.isDigit) : digit? c = some (c.toNat - '0'.toNat) := by
  have hRange : '0' ≤ c ∧ c ≤ '9' := by simpa [Char.isDigit, Char.le_def] using h
  rw [digit?, if_pos hRange]
  rfl

theorem digit?_of_not_isDigit {c : Char} (h : c.isDigit = false) : digit? c = none := by
  have hRange : ¬('0' ≤ c ∧ c ≤ '9') := by
    intro hRange
    have hDigit : c.isDigit := by simpa [Char.isDigit, Char.le_def] using hRange
    rw [h] at hDigit
    cases hDigit
  rw [digit?, if_neg hRange]

/-- More digits are worth no less. -/
theorem le_ofDigitChars (digits : List Char) (value : Nat) :
    value ≤ Nat.ofDigitChars 10 digits value := by
  induction digits generalizing value with
  | nil => exact le_rfl
  | cons c digits ih =>
      have hRest := ih (10 * value + (c.toNat - '0'.toNat))
      rw [Nat.ofDigitChars_cons]
      omega

/-- Reading goes on after digits that are worth at most the limit. -/
theorem readDigits_append (hValue : value ≤ limit) (hDigits : ∀ c ∈ digits, c.isDigit)
    (rest : List Char) : readDigits limit value (digits ++ rest) =
      if Nat.ofDigitChars 10 digits value ≤ limit then
        readDigits limit (Nat.ofDigitChars 10 digits value) rest
      else .error .tooLarge := by
  induction digits generalizing value with
  | nil => rw [Nat.ofDigitChars_nil, if_pos hValue, List.nil_append]
  | cons c digits ih =>
      have hAfter := le_ofDigitChars digits (10 * value + (c.toNat - '0'.toNat))
      rw [Nat.ofDigitChars_cons, List.cons_append, readDigits,
        digit?_of_isDigit (hDigits c List.mem_cons_self)]
      by_cases hLarge : limit < 10 * value + (c.toNat - '0'.toNat)
      · rw [if_neg (by omega)]
        simp only [if_pos hLarge]
      · simp only [if_neg hLarge]
        exact ih (by omega) fun c hMem => hDigits c (List.mem_cons_of_mem _ hMem)

theorem unsigned_eq_self (h : ∀ rest, text ≠ '+' :: rest) : unsigned text = text := by
  unfold unsigned
  split
  case h_1 rest => exact absurd rfl (h rest)
  case h_2 => rfl

/-- Nothing is left of a text that is empty or a lone sign. -/
theorem unsigned_eq_nil_iff : unsigned text = [] ↔ text = [] ∨ text = ['+'] := by
  constructor
  · intro hNil
    by_cases hPlus : ∃ rest, text = '+' :: rest
    · obtain ⟨rest, rfl⟩ := hPlus
      obtain rfl : rest = [] := hNil
      exact .inr rfl
    · rw [unsigned_eq_self (not_exists.mp hPlus)] at hNil
      exact .inl hNil
  · rintro (rfl | rfl) <;> rfl

/-- A sign that does not stand alone is passed over. -/
theorem readNumeral_eq_readDigits (h : unsigned text ≠ []) :
    readNumeral limit text = readDigits limit 0 (unsigned text) := by
  unfold readNumeral
  split
  case h_1 => exact absurd rfl h
  case h_2 rest =>
    have hSome : rest ≠ [] := h
    rw [if_neg (by simpa using hSome)]
    rfl
  case h_3 hPlus => rw [unsigned_eq_self hPlus]

/-- How a text is read whose first characters, but for the sign, are digits. -/
theorem readNumeral_append (hText : unsigned text = digits ++ rest) (hSome : digits ++ rest ≠ [])
    (hDigits : ∀ c ∈ digits, c.isDigit) : readNumeral limit text =
      if worth digits ≤ limit then readDigits limit (worth digits) rest
      else .error .tooLarge := by
  rw [readNumeral_eq_readDigits (by rwa [hText]), hText]
  exact readDigits_append (Nat.zero_le limit) hDigits rest

theorem IsNumeral.reads (h : IsNumeral text n) (hFits : n ≤ limit) :
    readNumeral limit text = .ok n := by
  obtain ⟨hSome, hDigits, rfl⟩ := h
  have hText := (List.append_nil (unsigned text)).symm
  rw [readNumeral_append hText (hText ▸ hSome) hDigits, if_pos hFits]
  rfl

/-- What is wrong with a text is told. -/
theorem Misread.fails (h : Misread limit text cause) : readNumeral limit text = .error cause := by
  cases h with
  | empty => rfl
  | sign => rfl
  | stray hText hDigits hFits hStray =>
      rw [readNumeral_append hText (by simp) hDigits, if_pos hFits, readDigits,
        digit?_of_not_isDigit hStray]
  | @large _ digits rest hText hDigits hLarge =>
      have hSome : digits ≠ [] := by
        rintro rfl
        exact absurd hLarge (Nat.not_lt_zero limit)
      rw [readNumeral_append hText (by simp [hSome]) hDigits, if_neg (Nat.not_le.mpr hLarge)]

/-- A text is a numeral within the limit, or something is wrong with it. -/
theorem isNumeral_or_misread (limit : Nat) (text : List Char) :
    (∃ n, IsNumeral text n ∧ n ≤ limit) ∨ ∃ cause, Misread limit text cause := by
  by_cases hNil : unsigned text = []
  · rcases unsigned_eq_nil_iff.mp hNil with rfl | rfl
    · exact .inr ⟨_, .empty⟩
    · exact .inr ⟨_, .sign⟩
  · have hSplit := (List.takeWhile_append_dropWhile (p := Char.isDigit) (l := unsigned text)).symm
    have hDigits : ∀ c ∈ (unsigned text).takeWhile Char.isDigit, c.isDigit :=
      fun c hMem => List.mem_takeWhile_imp hMem
    by_cases hFits : worth ((unsigned text).takeWhile Char.isDigit) ≤ limit
    · cases hRest : (unsigned text).dropWhile Char.isDigit with
      | nil =>
          rw [hRest, List.append_nil] at hSplit
          rw [← hSplit] at hDigits hFits
          exact .inl ⟨_, ⟨hNil, hDigits, rfl⟩, hFits⟩
      | cons c rest =>
          have hStray := List.head?_dropWhile_not Char.isDigit (unsigned text)
          rw [hRest] at hSplit hStray
          exact .inr ⟨_, .stray hSplit hDigits hFits hStray⟩
    · exact .inr ⟨_, .large hSplit hDigits (Nat.lt_of_not_le hFits)⟩

/-- What is read is exactly a numeral within the limit. -/
theorem readNumeral_eq_ok_iff :
    readNumeral limit text = .ok n ↔ IsNumeral text n ∧ n ≤ limit :=
  (result_eq_iff (fun _ h => h.1.reads h.2) (fun _ => Misread.fails)
    (isNumeral_or_misread limit text)).1 n

/-- The error is exactly what is wrong with the text first. -/
theorem readNumeral_eq_error_iff :
    readNumeral limit text = .error cause ↔ Misread limit text cause :=
  (result_eq_iff (fun _ h => h.1.reads h.2) (fun _ => Misread.fails)
    (isNumeral_or_misread limit text)).2 cause

end Digits

end CipherRelay.Text
