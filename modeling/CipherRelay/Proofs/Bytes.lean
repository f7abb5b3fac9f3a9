import CipherRelay.Bytes
import Mathlib.Algebra.Group.Nat.Defs
/-!
What was laid out in bytes is read back from them, words as well as texts.
-/
namespace CipherRelay.Bytes

/-- The bytes of a word determine it as long as the word fits. -/
theorem ofLittleEndian_littleEndian (count value : Nat) :
    ofLittleEndian (littleEndian count value) = value % 256 ^ count := by
  induction count generalizing value with
  | zero => simp [littleEndian, ofLittleEndian, Nat.mod_one]
  | succ count ih =>
      rw [littleEndian, ofLittleEndian, ih, Nat.pow_succ, Nat.mul_comm (256 ^ count) 256,
        Nat.mod_mul]
      simp

/-- The bytes of a word are those of the number that they stand for. -/
theorem littleEndian_ofLittleEndian (bytes : Bytes) :
    littleEndian bytes.length (ofLittleEndian bytes) = bytes := by
  induction bytes with
  | nil => rfl
  | cons byte rest ih =>
      have hByte : (byte.toNat + 256 * ofLittleEndian rest).toUInt8 = byte := by
        rw [← UInt8.toNat_inj]
        simp
      have hRest : (byte.toNat + 256 * ofLittleEndian rest) / 256 = ofLittleEndian rest := by
        have hLt := byte.toNat_lt
        omega
      rw [List.length_cons, ofLittleEndian, littleEndian, hByte, hRest, ih]

/-- So many bytes stand for a number below that power. -/
theorem ofLittleEndian_lt (bytes : Bytes) : ofLittleEndian bytes < 256 ^ bytes.length := by
  have hValue := ofLittleEndian_littleEndian bytes.length (ofLittleEndian bytes)
  rw [littleEndian_ofLittleEndian] at hValue
  rw [hValue]
  exact Nat.mod_lt _ (Nat.pow_pos (by decide))

/-- The header of a frame is read back as long as its number fits. -/
theorem ofBigEndian_bigEndian (count value : Nat) :
    ofBigEndian (bigEndian count value) = value % 256 ^ count := by
  rw [ofBigEndian, bigEndian, List.reverse_reverse, ofLittleEndian_littleEndian]

theorem bigEndian_ofBigEndian (bytes : Bytes) :
    bigEndian bytes.length (ofBigEndian bytes) = bytes := by
  have hReverse := littleEndian_ofLittleEndian bytes.reverse
  rw [List.length_reverse] at hReverse
  rw [bigEndian, ofBigEndian, hReverse, List.reverse_reverse]

theorem length_bigEndian (count value : Nat) : (bigEndian count value).length = count := by
  rw [bigEndian, List.length_reverse, length_littleEndian]

theorem ofText_ofList (chars : List Char) :
    ofText (String.ofList chars) = chars.flatMap String.utf8EncodeChar := by
  simp [ofText, List.utf8Encode]

/-- A text is read back from its bytes. -/
theorem toText?_ofText (text : String) : toText? (ofText text) = some text := by
  have hBytes : (ofText text).toByteArray = text.toByteArray := by
    apply ByteArray.ext
    simp [ofText]
  simp only [toText?, String.fromUTF8?, hBytes]
  rw [dif_pos text.isValidUTF8]
  rfl

end CipherRelay.Bytes
