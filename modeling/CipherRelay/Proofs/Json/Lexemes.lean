import CipherRelay.Json.Basic
/-!
Scanning undoes rendering. A lexeme is written if the scanner can tell its text from what may
follow: a number has the form of a number, and a string has no open quote, control byte or broken
escape. A row of written lexemes in which no two words touch is what the scanner finds in its text.
-/
namespace CipherRelay.Json

/-- The bytes that may stand between two quotes. -/
inductive Quotable : Bytes → Prop
  | nil : Quotable []
  | plain {byte : UInt8} {rest : Bytes} (hQuote : byte ≠ 0x22) (hEscape : byte ≠ 0x5c)
      (hControl : ¬byte < 0x20) (tail : Quotable rest) : Quotable (byte :: rest)
  | letter {byte : UInt8} {rest : Bytes}
      (hLetter : byte ∈ [0x22, 0x5c, 0x2f, 0x62, 0x66, 0x6e, 0x72, 0x74])
      (tail : Quotable rest) : Quotable (0x5c :: byte :: rest)
  | unicode {a b c d : UInt8} {rest : Bytes} (ha : isHexDigit a) (hb : isHexDigit b)
      (hc : isHexDigit c) (hd : isHexDigit d) (tail : Quotable rest) :
      Quotable (0x5c :: 0x75 :: a :: b :: c :: d :: rest)

/-- What may stand between quotes may be joined. -/
theorem Quotable.append {first second : Bytes} (hFirst : Quotable first)
    (hSecond : Quotable second) : Quotable (first ++ second) := by
  induction hFirst with
  | nil => exact hSecond
  | plain hQuote hEscape hControl _ ih => exact .plain hQuote hEscape hControl ih
  | letter hLetter _ ih => exact .letter hLetter ih
  | unicode ha hb hc hd _ ih => exact .unicode ha hb hc hd ih

namespace Lexeme

/-- Whether the end of a lexeme shows only in what follows it. -/
def isWord : Lexeme → Bool
  | .null | .bool _ | .number _ => true
  | _ => false

/-- A lexeme that can be told from its text. -/
def IsWritten : Lexeme → Prop
  | .number text => isNumber text
  | .string raw => Quotable raw
  | _ => True

end Lexeme

/-- A text that ends a word before it. -/
def Delimited : Bytes → Prop
  | [] => True
  | byte :: _ => ByteClass.of byte ≠ .letter

/-- A row of written lexemes without two words in a row. -/
def Spaced : List Lexeme → Prop
  | [] => True
  | lexeme :: rest =>
      lexeme.IsWritten ∧ (lexeme.isWord → ∀ next ∈ rest.head?, next.isWord = false) ∧ Spaced rest

/-- A run of bytes that the scanner keeps together. -/
def IsRun (text : Bytes) : Prop :=
  ∀ byte ∈ text, ByteClass.of byte = .letter

theorem of_digit {byte : UInt8} (h : isDigit byte) : ByteClass.of byte = .letter := by
  unfold ByteClass.of
  split
  case h_12 => rfl
  all_goals simp [isDigit] at h

/-- Digits in front do not break a run of letters. -/
theorem IsRun.of_dropWhile {text : Bytes} (h : IsRun (text.dropWhile isDigit)) : IsRun text := by
  induction text with
  | nil => exact h
  | cons first rest ih =>
      intro byte hMem
      by_cases hFirst : isDigit first
      · rw [List.dropWhile_cons_of_pos hFirst] at h
        rcases List.mem_cons.mp hMem with rfl | hMem
        · exact of_digit hFirst
        · exact ih h byte hMem
      · rw [List.dropWhile_cons_of_neg hFirst] at h
        exact h byte hMem

theorem IsRun.cons {byte : UInt8} {rest : Bytes} (hByte : ByteClass.of byte = .letter)
    (h : IsRun rest) : IsRun (byte :: rest) := by
  intro other hMem
  rcases List.mem_cons.mp hMem with rfl | hMem
  · exact hByte
  · exact h other hMem

theorem isRun_of_isExponent {text : Bytes} (h : isExponent text) : IsRun text := by
  unfold isExponent at h
  split at h
  case h_1 => simp [IsRun]
  case h_2 mark rest =>
    simp only [Bool.and_eq_true, Bool.or_eq_true, beq_iff_eq, List.all_eq_true] at h
    obtain ⟨⟨hMark, -⟩, hDigits⟩ := h
    refine IsRun.cons (by rcases hMark with rfl | rfl <;> rfl) ?_
    split at hDigits
    · exact IsRun.cons rfl fun byte hMem => of_digit (hDigits byte hMem)
    · exact IsRun.cons rfl fun byte hMem => of_digit (hDigits byte hMem)
    · exact fun byte hMem => of_digit (hDigits byte hMem)

theorem isRun_of_isFraction {text : Bytes} (h : isFraction text) : IsRun text := by
  unfold isFraction at h
  split at h
  · simp only [Bool.and_eq_true] at h
    exact IsRun.cons rfl (IsRun.cons (of_digit h.1) (isRun_of_isExponent h.2).of_dropWhile)
  · exact isRun_of_isExponent h

/-- A number is one run, so it is not cut into pieces. -/
theorem isRun_of_isNumber {text : Bytes} (h : isNumber text) : IsRun text ∧ text ≠ [] := by
  have hUnsigned : ∀ rest : Bytes,
      (match rest with
        | 0x30 :: rest => isFraction rest
        | first :: rest => isDigit first && isFraction (rest.dropWhile isDigit)
        | [] => false) = true → IsRun rest ∧ rest ≠ [] := by
    intro rest hRest
    split at hRest
    · exact ⟨IsRun.cons rfl (isRun_of_isFraction hRest), by simp⟩
    · simp only [Bool.and_eq_true] at hRest
      exact ⟨IsRun.cons (of_digit hRest.1) (isRun_of_isFraction hRest.2).of_dropWhile, by simp⟩
    · simp at hRest
  unfold isNumber at h
  by_cases hSign : ∃ rest, text = 0x2d :: rest
  · obtain ⟨rest, rfl⟩ := hSign
    exact ⟨IsRun.cons rfl (hUnsigned rest h).1, by simp⟩
  · apply hUnsigned text
    split at h
    all_goals simp_all

/-- A word is read back from its letters. -/
theorem ofWord?_render {lexeme : Lexeme} (hWritten : lexeme.IsWritten) (hWord : lexeme.isWord) :
    Lexeme.ofWord? lexeme.render = some lexeme := by
  cases lexeme with
  | null => rfl
  | bool value => cases value <;> rfl
  | number text =>
      have hNumber : isNumber text := hWritten
      have hOther : text ≠ [0x6e, 0x75, 0x6c, 0x6c] ∧ text ≠ [0x74, 0x72, 0x75, 0x65] ∧
          text ≠ [0x66, 0x61, 0x6c, 0x73, 0x65] := by
        refine ⟨?_, ?_, ?_⟩ <;> rintro rfl <;> simp [isNumber, isDigit] at hNumber
      simp [Lexeme.ofWord?, Lexeme.render, hOther, hNumber]
  | _ => simp [Lexeme.isWord] at hWord

/-- The text of a word is one run. -/
theorem isRun_render {lexeme : Lexeme} (hWritten : lexeme.IsWritten) (hWord : lexeme.isWord) :
    IsRun lexeme.render ∧ lexeme.render ≠ [] := by
  cases lexeme with
  | null => exact ⟨by simp [IsRun, Lexeme.render, ByteClass.of], by simp [Lexeme.render]⟩
  | bool value =>
      cases value <;> exact ⟨by simp [IsRun, Lexeme.render, ByteClass.of], by simp [Lexeme.render]⟩
  | number text => exact isRun_of_isNumber hWritten
  | _ => simp [Lexeme.isWord] at hWord

/-- A mark ends the word in front of it. -/
theorem delimited_render {lexeme : Lexeme} (hWord : lexeme.isWord = false) (rest : Bytes) :
    Delimited (lexeme.render ++ rest) := by
  cases lexeme <;> simp [Lexeme.isWord] at hWord <;> simp [Delimited, Lexeme.render, ByteClass.of]

namespace Scanner

/-- A run inside a word goes on with it. -/
theorem scan_run (found : List Lexeme) (seen : Bytes) {run : Bytes} (hRun : IsRun run)
    (rest : Bytes) :
    scan found (.word seen) (run ++ rest) = scan found (.word (run.reverse ++ seen)) rest := by
  induction run generalizing seen with
  | nil => rfl
  | cons byte run ih =>
      have hByte : ByteClass.of byte = .letter := hRun byte (by simp)
      have hTail : IsRun run := fun other hMem => hRun other (by simp [hMem])
      simp [scan, next?, hByte, ih _ hTail]

/-- A word is complete at the end of the text or before a byte that is no letter. -/
theorem scan_word {found : List Lexeme} {seen rest : Bytes} {lexeme : Lexeme}
    (hSeen : Lexeme.ofWord? seen.reverse = some lexeme) (hRest : Delimited rest) :
    scan found (.word seen) rest = scan (lexeme :: found) .between rest := by
  cases rest with
  | nil => simp [scan, finish?, hSeen]
  | cons byte rest =>
      have hByte : ByteClass.of byte ≠ .letter := hRest
      simp [scan, next?, hByte, hSeen]

/-- A quotable text is read up to its closing quote. -/
theorem scan_quotable (found : List Lexeme) (seen : Bytes) {raw : Bytes} (hRaw : Quotable raw)
    (rest : Bytes) :
    scan found (.quoted seen) (raw ++ 0x22 :: rest) =
      scan (.string (seen.reverse ++ raw) :: found) .between rest := by
  induction hRaw generalizing seen with
  | nil => simp [scan, next?]
  | plain hQuote hEscape hControl _ ih => simp [scan, next?, hQuote, hEscape, hControl, ih]
  | @letter byte _ hLetter _ ih =>
      have hUnicode : byte ≠ 0x75 := by rintro rfl; simp at hLetter
      simp [scan, next?, hUnicode, hLetter, ih]
  | unicode ha hb hc hd _ ih => simp [scan, next?, ha, hb, hc, hd, ih]

/-- A written lexeme is found in its text. -/
theorem scan_render (found : List Lexeme) {lexeme : Lexeme} (hWritten : lexeme.IsWritten)
    {rest : Bytes} (hRest : lexeme.isWord → Delimited rest) :
    scan found .between (lexeme.render ++ rest) = scan (lexeme :: found) .between rest := by
  by_cases hWord : lexeme.isWord
  · obtain ⟨hRun, hNonempty⟩ := isRun_render hWritten hWord
    obtain ⟨first, tail, hText⟩ := List.exists_cons_of_ne_nil hNonempty
    rw [hText] at hRun
    have hFirst : ByteClass.of first = .letter := hRun first (by simp)
    have hTail : IsRun tail := fun other hMem => hRun other (by simp [hMem])
    have hSeen : Lexeme.ofWord? (tail.reverse ++ [first]).reverse = some lexeme := by
      simpa [← hText] using ofWord?_render hWritten hWord
    calc
      scan found .between (lexeme.render ++ rest) = scan found (.word [first]) (tail ++ rest) := by
        simp [hText, scan, next?, enter, hFirst]
      _ = scan found (.word (tail.reverse ++ [first])) rest := scan_run found [first] hTail rest
      _ = scan (lexeme :: found) .between rest := scan_word hSeen (hRest hWord)
  · cases lexeme with
    | string raw =>
        have hQuotable : Quotable raw := hWritten
        simpa [Lexeme.render, scan, next?, enter, ByteClass.of] using
          scan_quotable found [] hQuotable rest
    | null | bool _ | number _ => exact absurd rfl hWord
    | _ => simp [Lexeme.render, scan, next?, enter, ByteClass.of]

end Scanner

/-- A spaced row is scanned back from its text. -/
theorem scan_flatMap_render (found : List Lexeme) {row : List Lexeme} (hRow : Spaced row) :
    Scanner.scan found .between (row.flatMap Lexeme.render) = some (found.reverse ++ row) := by
  induction row generalizing found with
  | nil => simp [Scanner.scan, Scanner.finish?]
  | cons lexeme row ih =>
      obtain ⟨hWritten, hNext, hRest⟩ := hRow
      have hDelimited : lexeme.isWord → Delimited (row.flatMap Lexeme.render) := by
        intro hWord
        cases row with
        | nil => trivial
        | cons next row => exact delimited_render (hNext hWord next (by simp)) _
      rw [List.flatMap_cons, Scanner.scan_render found hWritten hDelimited, ih _ hRest]
      simp

/-- A row of lexemes is read back from its text, as long as no two words touch. -/
theorem lexemes?_flatMap_render {row : List Lexeme} (hRow : Spaced row) :
    lexemes? (row.flatMap Lexeme.render) = some row :=
  scan_flatMap_render [] hRow

end CipherRelay.Json
