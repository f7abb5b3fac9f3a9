/-!
The two ways in which a computation can stop early. An error is part of the answer and has a cause
of its own type. A crash leaves the domain of an operation: no answer exists, and whoever asked for
it stops.
-/
namespace CipherRelay

/-- An operation applied outside its domain. -/
inductive Crash
  /-- A number was to be drawn below zero. -/
  | emptyRange
  /-- A remainder by zero. -/
  | zeroModulus
  /-- A result that does not fit its word. -/
  | overflow
  /-- More memory asked for than an allocation can have. -/
  | capacity
  deriving DecidableEq, Repr

/-- Why a computation stopped early. -/
inductive Failure (ε : Type)
  | error (cause : ε)
  | crash (cause : Crash)
  deriving DecidableEq, Repr

namespace Failure

/-- Gives the error another type; a crash stays the crash it was. -/
def mapError {ε φ : Type} (f : ε → φ) : Failure ε → Failure φ
  | .error cause => .error (f cause)
  | .crash cause => .crash cause

/-- An outcome whose error is given another type. -/
def adapt {ε φ α : Type} (f : ε → φ) : Except (Failure ε) α → Except (Failure φ) α
  | .ok value => .ok value
  | .error failure => .error (failure.mapError f)

end Failure

instance {ε : Type} : MonadLift (Except Crash) (Except (Failure ε)) where
  monadLift
    | .ok value => .ok value
    | .error cause => .error (.crash cause)

/-!
Words with their limits made visible. Each operation answers the exact result or the crash that
stands for its absence, so nothing wraps around unseen.
-/
namespace Word

/-- The sum, if it fits 64 bits. -/
def add (x y : UInt64) : Except Crash UInt64 :=
  if x.toNat + y.toNat < UInt64.size then .ok (x + y) else .error .overflow

/-- The difference, if it is not negative. -/
def sub (x y : UInt64) : Except Crash UInt64 :=
  if y ≤ x then .ok (x - y) else .error .overflow

/-- The remainder, if the modulus is not zero. -/
def mod (x t : UInt64) : Except Crash UInt64 :=
  if t = 0 then .error .zeroModulus else .ok (x % t)

/-- A whole number as a signed word, if it fits 64 bits. -/
def signed (v : Int) : Except Crash Int64 :=
  if Int64.minValue.toInt ≤ v ∧ v ≤ Int64.maxValue.toInt then .ok (Int64.ofInt v)
  else .error .overflow

/-- The remainder of least absolute value not below zero. The one quotient that does not fit a
signed word is the least word divided by minus one. -/
def euclidean (v t : Int64) : Except Crash Int64 :=
  if t = 0 then .error .zeroModulus
  else if v = Int64.minValue ∧ t = -1 then .error .overflow
  else .ok (Int64.ofInt (v.toInt % t.toInt))

/-- The most words that an allocation holds. A signed word counts its bytes, eight for each of
them. -/
def capacity : Nat := 0x7fffffffffffffff / 8

/-- Memory for a number of words, if so many can be asked for. Whether the machine has as much is
not looked at. -/
def reserve (count : Nat) : Except Crash Unit :=
  if count ≤ capacity then .ok () else .error .capacity

end Word

end CipherRelay
