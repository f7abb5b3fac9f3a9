import CipherRelay.Json.Record
import CipherRelay.Proofs.Bytes
import CipherRelay.Proofs.Json.Values
import Mathlib.Tactic.SplitIfs
/-!
Texts survive their written form: the escapes of a text can stand between quotes, and resolving them
gives the text back. With its texts a record can be read by the names of its fields.
-/
namespace CipherRelay

namespace Json

/-- A byte of its own may stand between quotes unless it closes them, opens an escape or
controls. -/
theorem Quotable.single {byte : UInt8} (hQuote : byte.toNat ≠ 0x22) (hEscape : byte.toNat ≠ 0x5c)
    (hControl : 0x20 ≤ byte.toNat) : Quotable [byte] := by
  refine .plain ?_ ?_ ?_ .nil
  · rintro rfl
    exact hQuote rfl
  · rintro rfl
    exact hEscape rfl
  · rw [UInt8.lt_iff_toNat_lt]
    simpa using hControl

/-- Bytes above the ASCII range may stand between quotes. -/
theorem Quotable.high {raw : Bytes} (h : ∀ byte ∈ raw, 0x80 ≤ byte.toNat) : Quotable raw := by
  induction raw with
  | nil => exact .nil
  | cons byte raw ih =>
      have hByte := h byte (by simp)
      have hRest := ih fun other hMem => h other (by simp [hMem])
      exact (Quotable.single (by omega) (by omega) (by omega)).append hRest

/-- The bytes of a character that needs no escape may stand between quotes. -/
theorem quotable_utf8EncodeChar {c : Char} (hQuote : c ≠ '"') (hEscape : c ≠ '\\')
    (hControl : ¬c.toNat < 32) : Quotable (String.utf8EncodeChar c) := by
  have hQuote' : c.val.toNat ≠ 0x22 := fun h => hQuote (Char.ext (UInt32.toNat_inj.mp h))
  have hEscape' : c.val.toNat ≠ 0x5c := fun h => hEscape (Char.ext (UInt32.toNat_inj.mp h))
  have hControl' : ¬c.val.toNat < 32 := hControl
  unfold String.utf8EncodeChar
  generalize c.val.toNat = v at hQuote' hEscape' hControl'
  simp only
  split_ifs with hOne hTwo hThree
  · refine Quotable.single ?_ ?_ ?_ <;> rw [UInt8.toNat_ofNat'] <;> omega
  all_goals
    refine Quotable.high ?_
    simp only [List.forall_mem_cons, UInt8.toNat_ofNat']
    simp
    omega

/-- A character from its code. -/
theorem eq_ofNat_of_toNat {c : Char} {n : Nat} (h : c.toNat = n) : c = Char.ofNat n := by
  rw [← h, Char.ofNat_toNat]

/-- The digits of a control character name its code. -/
theorem unit?_hexPair {n : Nat} (h : n < 32) :
    ∃ high low, Bytes.hexPair n.toUInt8 = [high, low] ∧ unit? '0' '0' high low = some n := by
  have hAll : ∀ n : Fin 32, unit? '0' '0' ((Bytes.hexPair n.val.toUInt8).getD 0 'x')
      ((Bytes.hexPair n.val.toUInt8).getD 1 'x') = some n.val := by decide +kernel
  exact ⟨_, _, rfl, hAll ⟨n, h⟩⟩

theorem hexDigit_of_mem_hexPair {n : Nat} (h : n < 32) :
    ∀ c ∈ Bytes.hexPair n.toUInt8,
      String.utf8EncodeChar c = [c.toNat.toUInt8] ∧ isHexDigit c.toNat.toUInt8 := by
  have hAll : ∀ n : Fin 32, (Bytes.hexPair n.val.toUInt8).all fun c =>
      String.utf8EncodeChar c = [c.toNat.toUInt8] ∧ isHexDigit c.toNat.toUInt8 := by
    decide +kernel
  simpa using hAll ⟨n, h⟩

/-- A character is read back from its escape. -/
theorem unescape_escapeChar (done : List Char) (c : Char) (rest : List Char) :
    unescape done .none (escapeChar c ++ rest) = unescape (c :: done) .none rest := by
  unfold escapeChar
  split_ifs with hQuote hEscape h8 h9 h10 h12 h13 hControl
  · subst hQuote
    simp [unescape, unescapeLetter?]
  · subst hEscape
    simp [unescape, unescapeLetter?]
  · obtain rfl := eq_ofNat_of_toNat h8
    simp [unescape, unescapeLetter?]
  · obtain rfl := eq_ofNat_of_toNat h9
    simp [unescape, unescapeLetter?]
  · obtain rfl := eq_ofNat_of_toNat h10
    simp [unescape, unescapeLetter?]
  · obtain rfl := eq_ofNat_of_toNat h12
    simp [unescape, unescapeLetter?]
  · obtain rfl := eq_ofNat_of_toNat h13
    simp [unescape, unescapeLetter?]
  · obtain ⟨high, low, hPair, hUnit⟩ := unit?_hexPair hControl
    simp only [controlDigits, hPair, List.cons_append, List.nil_append]
    rw [unescape.eq_def]
    simp only [hUnit]
    rw [if_neg (by omega), if_neg (by omega), Char.ofNat_toNat]
  · rw [List.singleton_append, unescape.eq_def]
    split
    all_goals simp_all

/-- The escapes of a text resolve to it. -/
theorem unescape_flatMap_escapeChar (done chars : List Char) :
    unescape done .none (chars.flatMap escapeChar) = some (done.reverse ++ chars) := by
  induction chars generalizing done with
  | nil => simp [unescape]
  | cons c chars ih =>
      rw [List.flatMap_cons, unescape_escapeChar, ih]
      simp

/-- A text is read back from between its quotes. -/
theorem unescape?_escape (text : String) : unescape? (escape text) = some text := by
  simp [unescape?, escape, Bytes.toText?_ofText, unescape_flatMap_escapeChar]

/-- The bytes of an escaped character may stand between quotes. -/
theorem quotable_escapeChar (c : Char) :
    Quotable ((escapeChar c).flatMap String.utf8EncodeChar) := by
  unfold escapeChar
  split_ifs with hQuote hEscape h8 h9 h10 h12 h13 hControl
  · exact .letter (by decide) .nil
  · exact .letter (by decide) .nil
  · exact .letter (by decide) .nil
  · exact .letter (by decide) .nil
  · exact .letter (by decide) .nil
  · exact .letter (by decide) .nil
  · exact .letter (by decide) .nil
  · obtain ⟨high, low, hPair, -⟩ := unit?_hexPair hControl
    have hDigits := hexDigit_of_mem_hexPair hControl
    rw [hPair] at hDigits
    obtain ⟨hHigh, hHighDigit⟩ := hDigits high (by simp)
    obtain ⟨hLow, hLowDigit⟩ := hDigits low (by simp)
    have hBytes : ('\\' :: 'u' :: controlDigits c).flatMap String.utf8EncodeChar =
        [0x5c, 0x75, 0x30, 0x30, high.toNat.toUInt8, low.toNat.toUInt8] := by
      rw [controlDigits, hPair]
      simp only [List.flatMap_cons, hHigh, hLow, List.flatMap_nil]
      rfl
    rw [hBytes]
    exact .unicode rfl rfl hHighDigit hLowDigit .nil
  · simpa using quotable_utf8EncodeChar hQuote hEscape hControl

/-- The bytes of an escaped text may stand between quotes. -/
theorem quotable_escape (text : String) : Quotable (escape text) := by
  rw [escape, Bytes.ofText_ofList, List.flatMap_assoc]
  generalize text.toList = chars
  induction chars with
  | nil => exact .nil
  | cons c chars ih =>
      rw [List.flatMap_cons]
      exact (quotable_escapeChar c).append ih

/-- Every text may stand between quotes once it is escaped. -/
theorem isWritten_ofText (text : String) : (ofText text).IsWritten := by
  intro lexeme hMem
  obtain rfl : lexeme = .string (escape text) := by simpa [ofText, lexemes] using hMem
  exact quotable_escape text

/-- A text is read back from its string. -/
theorem text?_ofText (text : String) : (ofText text).text? = some text :=
  unescape?_escape text

/-- A record is written if its fields are. -/
theorem isWritten_record {fields : List (String × Json)}
    (h : ∀ field ∈ fields, field.2.IsWritten) : (record fields).IsWritten := by
  apply isWritten_object.mpr
  intro member hMem
  obtain ⟨field, hField, rfl⟩ := List.mem_map.mp hMem
  exact ⟨quotable_escape field.1, h field hField⟩

/-- Reading back each part of a list reads back the list. -/
theorem mapM_map_eq_some {α β : Type} {write : α → β} {read : β → Option α} {parts : List α}
    (h : ∀ part ∈ parts, read (write part) = some part) :
    (parts.map write).mapM read = some parts := by
  induction parts with
  | nil => rfl
  | cons first rest ih => simp [h first (by simp), ih fun part hMem => h part (by simp [hMem])]

/-- Among fields of different names each is found under its own. -/
theorem only?_eq_some {fields : List (String × Json)} (hNames : (fields.map (·.1)).Nodup)
    {field : String × Json} (hField : field ∈ fields) : only? field.1 fields = some field.2 := by
  have hSame : fields.filter (fun other => other.1 = field.1) = [field] := by
    induction fields with
    | nil => simp at hField
    | cons first rest ih =>
        rw [List.map_cons, List.nodup_cons] at hNames
        obtain ⟨hFresh, hRest⟩ := hNames
        rcases List.mem_cons.mp hField with rfl | hMem
        · have hNone : rest.filter (fun other => other.1 = field.1) = [] := by
            refine List.filter_eq_nil_iff.mpr fun other hOther hName => hFresh ?_
            exact List.mem_map.mpr ⟨other, hOther, by simpa using hName⟩
          simp [hNone]
        · have hOther : first.1 ≠ field.1 := fun hName =>
            hFresh (hName ▸ List.mem_map.mpr ⟨field, hMem, rfl⟩)
          simpa [List.filter_cons, hOther] using ih hRest hMem
  simp [only?, hSame]

/-- The fields of a record are read by their names. -/
theorem fields?_record (fields : List (String × Json)) (hNames : (fields.map (·.1)).Nodup) :
    (record fields).fields? (fields.map (·.1)) = some (fields.map (·.2)) := by
  have hFields : ∀ part : List (String × Json), (∀ field ∈ part, field ∈ fields) →
      (part.map (·.1)).mapM (fun name => only? name fields) = some (part.map (·.2)) := by
    intro part hPart
    induction part with
    | nil => rfl
    | cons field part ih =>
        have hField := only?_eq_some hNames (hPart field (by simp))
        have hRest := ih fun other hMem => hPart other (by simp [hMem])
        simp [hField, hRest]
  simp only [fields?, record]
  rw [mapM_map_eq_some]
  · exact hFields fields fun _ hMem => hMem
  · intro field _
    simp [unescape?_escape]

end Json

end CipherRelay
