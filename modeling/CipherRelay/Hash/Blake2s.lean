import CipherRelay.Bytes
/-!
The BLAKE2s hash with a digest of 32 bytes and no key. Its state is a square of sixteen words. A
round mixes the four columns of the square and then its four diagonals, and the diagonals are the
columns once the rows have been rotated.
-/
namespace CipherRelay.Hash.Blake2s

/-- Four words that are worked on side by side. -/
structure Row where
  w0 : UInt32
  w1 : UInt32
  w2 : UInt32
  w3 : UInt32
  deriving DecidableEq, Repr

namespace Row

/-- Combines two rows word by word. -/
def zip (f : UInt32 → UInt32 → UInt32) (r s : Row) : Row :=
  ⟨f r.w0 s.w0, f r.w1 s.w1, f r.w2 s.w2, f r.w3 s.w3⟩

/-- Moves every word one place to the left; the first becomes the last. -/
def turn (r : Row) : Row :=
  ⟨r.w1, r.w2, r.w3, r.w0⟩

/-- The exclusive or of two rows, each word rotated right by `count` bits. -/
def mixRight (count : UInt32) (r s : Row) : Row :=
  zip (fun x y => let z := x ^^^ y; (z >>> count) ||| (z <<< (32 - count))) r s

/-- The words of a row in order. -/
def words (r : Row) : List UInt32 :=
  [r.w0, r.w1, r.w2, r.w3]

end Row

/-- The working state of a compression, row by row. -/
structure Square where
  a : Row
  b : Row
  c : Row
  d : Row

namespace Square

/-- Mixes the four columns at once; `x` and `y` are the message words for them. -/
def columns (s : Square) (x y : Row) : Square :=
  let a := Row.zip (· + ·) (Row.zip (· + ·) s.a s.b) x
  let d := Row.mixRight 16 s.d a
  let c := Row.zip (· + ·) s.c d
  let b := Row.mixRight 12 s.b c
  let a := Row.zip (· + ·) (Row.zip (· + ·) a b) y
  let d := Row.mixRight 8 d a
  let c := Row.zip (· + ·) c d
  let b := Row.mixRight 7 b c
  ⟨a, b, c, d⟩

/-- Turns the rows so that the diagonals stand in columns. -/
def slant (s : Square) : Square :=
  ⟨s.a, s.b.turn, s.c.turn.turn, s.d.turn.turn.turn⟩

/-- Undoes `slant`. -/
def straighten (s : Square) : Square :=
  ⟨s.a, s.b.turn.turn.turn, s.c.turn.turn, s.d.turn⟩

/-- A round under one order of the sixteen message words. -/
def round (m : Array UInt32) (s : Square) (order : Array Nat) : Square :=
  let word (i : Nat) : UInt32 := m.getD (order.getD i 0) 0
  let s := s.columns ⟨word 0, word 2, word 4, word 6⟩ ⟨word 1, word 3, word 5, word 7⟩
  let s := s.slant.columns ⟨word 8, word 10, word 12, word 14⟩ ⟨word 9, word 11, word 13, word 15⟩
  s.straighten

end Square

/-- The orders in which the ten rounds take the message words. -/
def orders : List (Array Nat) :=
  [#[0, 1, 2, 3, 4, 5, 6, 7, 8, 9, 10, 11, 12, 13, 14, 15],
    #[14, 10, 4, 8, 9, 15, 13, 6, 1, 12, 0, 2, 11, 7, 5, 3],
    #[11, 8, 12, 0, 5, 2, 15, 13, 10, 14, 3, 6, 7, 1, 9, 4],
    #[7, 9, 3, 1, 13, 12, 11, 14, 2, 6, 5, 10, 4, 0, 15, 8],
    #[9, 0, 5, 7, 2, 4, 10, 15, 14, 1, 11, 12, 6, 8, 3, 13],
    #[2, 12, 6, 10, 0, 11, 8, 3, 4, 13, 7, 5, 15, 14, 1, 9],
    #[12, 5, 1, 15, 14, 13, 4, 10, 0, 7, 6, 3, 9, 2, 8, 11],
    #[13, 11, 7, 14, 12, 1, 3, 9, 5, 0, 15, 4, 8, 6, 2, 10],
    #[6, 15, 14, 9, 11, 3, 0, 8, 12, 2, 13, 7, 1, 4, 10, 5],
    #[10, 2, 8, 4, 7, 6, 1, 5, 15, 11, 9, 14, 3, 12, 13, 0]]

/-- The first half of the initial words. -/
def initialHigh : Row := ⟨0x6a09e667, 0xbb67ae85, 0x3c6ef372, 0xa54ff53a⟩

/-- The second half of the initial words. -/
def initialLow : Row := ⟨0x510e527f, 0x9b05688c, 0x1f83d9ab, 0x5be0cd19⟩

/-- The chaining value between two blocks. -/
structure Chain where
  high : Row
  low : Row

/-- The chaining value before the first block. It holds the digest length and says that there is no
key and no tree. -/
def start : Chain :=
  ⟨Row.zip (· ^^^ ·) initialHigh ⟨0x01010020, 0, 0, 0⟩, initialLow⟩

/-- The little-endian words of a block of 64 bytes; a shorter block is filled with zero bytes. -/
def blockWords (block : Bytes) : Array UInt32 :=
  (Array.range 16).map fun i =>
    (Bytes.ofLittleEndian ((block.drop (4 * i)).take 4)).toUInt32

/-- Absorbs one block. `length` counts the bytes up to and with this block, and `last` says that
nothing follows. -/
def compress (chain : Chain) (block : Bytes) (length : UInt64) (last : Bool) : Chain :=
  let counter : Row :=
    ⟨length.toUInt32, (length >>> 32).toUInt32, if last then 0xffffffff else 0, 0⟩
  let square : Square :=
    ⟨chain.high, chain.low, initialHigh, Row.zip (· ^^^ ·) initialLow counter⟩
  let mixed := orders.foldl (Square.round (blockWords block)) square
  ⟨Row.zip (· ^^^ ·) chain.high (Row.zip (· ^^^ ·) mixed.a mixed.c),
    Row.zip (· ^^^ ·) chain.low (Row.zip (· ^^^ ·) mixed.b mixed.d)⟩

/-- Absorbs what is left of the input after `length` bytes. The last block holds at least one byte
unless the whole input is empty. -/
def absorb (chain : Chain) (length : UInt64) (input : Bytes) : Chain :=
  if input.length ≤ 64 then compress chain input (length + input.length.toUInt64) true
  else absorb (compress chain (input.take 64) (length + 64) false) (length + 64) (input.drop 64)
  termination_by input.length
  decreasing_by simp only [List.length_drop]; omega

/-- The digest of a byte string. -/
def digest (input : Bytes) : Bytes :=
  let chain := absorb start 0 input
  (chain.high.words ++ chain.low.words).flatMap fun word => Bytes.littleEndian 4 word.toNat

/-- A digest has 32 bytes. -/
theorem length_digest (input : Bytes) : (digest input).length = 32 := by
  simp [digest, Row.words, List.flatMap, Bytes.length_littleEndian]

end CipherRelay.Hash.Blake2s
