import CipherRelay.Failure
/-!
Sources of random words. Whoever draws gets a word and the source that comes after it, so a whole
run is a function of the source it starts from. Everything that draws works for every source; in
particular every sequence of words is the sequence of some source.
-/
namespace CipherRelay

/-- A state that yields 64-bit words one after another. -/
class RandomSource (ρ : Type) where
  next : ρ → UInt64 × ρ

/-- A computation that draws from a source. The source has advanced also where the computation
fails. -/
abbrev Draw (ρ ε α : Type) := EStateM (Failure ε) ρ α

namespace Draw

variable {ρ ε α : Type}

/-- A computation that draws nothing. -/
def ofExcept : Except (Failure ε) α → Draw ρ ε α
  | .ok value => fun source => .ok value source
  | .error failure => fun source => .error failure source

instance : MonadLift (Except (Failure ε)) (EStateM (Failure ε) ρ) where
  monadLift := ofExcept

instance : MonadLift (Except Crash) (EStateM (Failure ε) ρ) where
  monadLift
    | .ok value => fun source => .ok value source
    | .error cause => fun source => .error (.crash cause) source

/-- A number below `bound`; nothing lies below zero. The range is checked before a word is
drawn. -/
def below [RandomSource ρ] (bound : UInt64) : Draw ρ ε UInt64 := fun source =>
  if bound = 0 then .error (.crash .emptyRange) source
  else
    let (word, source) := RandomSource.next source
    .ok (word % bound) source

/-- A list of `count` numbers below `bound`, drawn from the first to the last. The memory for all of
them is asked for before a word is drawn. -/
def vector [RandomSource ρ] (count : Nat) (bound : UInt64) : Draw ρ ε (List UInt64) := do
  Word.reserve count
  (List.replicate count bound).mapM below

end Draw

/-- A source that multiplies and adds modulo 2^64, and folds the high half of its state into the
low half of the word it yields. -/
structure Congruential where
  state : UInt64
  deriving DecidableEq, Repr

instance : RandomSource Congruential where
  next source :=
    let state := source.state * 6364136223846793005 + 1442695040888963407
    (state ^^^ (state >>> 32), ⟨state⟩)

end CipherRelay
