import CipherRelay.Artifact
import CipherRelay.Failure
/-!
Contexts of the scheme, and what can be wrong with a context or with the operands of an operation.
A context fixes how many slots a vector has and modulo what its entries count.
-/
namespace CipherRelay.Scheme

/-- Why the scheme refuses to answer. -/
inductive EngineError
  | invalidRingDimension (dimension : UInt64)
  | invalidPlaintextModulus (modulus : UInt64)
  | dimensionMismatch (expected found : UInt64)
  | residueOutOfRange (found modulus : UInt64)
  | missingSumKey (rotation : UInt64)
  | serialization (reason : String)
  deriving DecidableEq, Repr

namespace EngineError

/-- The name of the kind of error. -/
def name : EngineError → String
  | .invalidRingDimension _ => "InvalidRingDimension"
  | .invalidPlaintextModulus _ => "InvalidPlaintextModulus"
  | .dimensionMismatch _ _ => "DimensionMismatch"
  | .residueOutOfRange _ _ => "ResidueOutOfRange"
  | .missingSumKey _ => "MissingSumKey"
  | .serialization _ => "Serialization"

/-- The wording of an error. -/
def message : EngineError → String
  | .invalidRingDimension n =>
      "Engine: ring dimension " ++ toString n ++ " is not a power of two of at least 2"
  | .invalidPlaintextModulus t => "Engine: plaintext modulus " ++ toString t ++ " is too small"
  | .dimensionMismatch expected found =>
      "Engine: expected " ++ toString expected ++ " slots, found " ++ toString found
  | .residueOutOfRange found modulus =>
      "Engine: residue " ++ toString found ++ " is not below the plaintext modulus " ++
        toString modulus
  | .missingSumKey rotation =>
      "Engine: no evaluation sum key for rotation " ++ toString rotation
  | .serialization reason => "Engine: serialization failed: " ++ reason

/-- The JSON form of an error. -/
def write (error : EngineError) : Json :=
  match error with
  | .invalidRingDimension n => .variant error.name (toJson n)
  | .invalidPlaintextModulus t => .variant error.name (toJson t)
  | .dimensionMismatch expected found =>
      .variant error.name (.record [("expected", toJson expected), ("found", toJson found)])
  | .residueOutOfRange found modulus =>
      .variant error.name (.record [("found", toJson found), ("modulus", toJson modulus)])
  | .missingSumKey rotation => .variant error.name (toJson rotation)
  | .serialization reason => .variant error.name (toJson reason)

/-- The error of a JSON form. -/
def read? (value : Json) : Option EngineError := do
  match ← value.variant? with
  | ("InvalidRingDimension", some n) => return .invalidRingDimension (← ofJson? n)
  | ("InvalidPlaintextModulus", some t) => return .invalidPlaintextModulus (← ofJson? t)
  | ("DimensionMismatch", some data) =>
      let [expected, found] ← data.fields? ["expected", "found"] | none
      return .dimensionMismatch (← ofJson? expected) (← ofJson? found)
  | ("ResidueOutOfRange", some data) =>
      let [found, modulus] ← data.fields? ["found", "modulus"] | none
      return .residueOutOfRange (← ofJson? found) (← ofJson? modulus)
  | ("MissingSumKey", some rotation) => return .missingSumKey (← ofJson? rotation)
  | ("Serialization", some reason) => return .serialization (← ofJson? reason)
  | _ => none

end EngineError

instance : Artifact EngineError := ⟨EngineError.write, EngineError.read?⟩

/-- The outcome of an operation of the scheme. -/
abbrev Outcome := Except (Failure EngineError)

instance : MonadLift (Except EngineError) Outcome where
  monadLift
    | .ok value => .ok value
    | .error cause => .error (.error cause)

/-- The artifact of a payload, or the error that the payload is malformed. -/
def decode {α : Type} [Artifact α] (payload : Bytes) : Except EngineError α :=
  match Artifact.decode? payload with
  | some artifact => .ok artifact
  | none => .error (.serialization "malformed artifact")

/-- What a context is asked for. -/
structure ContextParams where
  ringDimension : UInt64 := 256
  plaintextModulus : UInt64 := 65537
  deriving DecidableEq, Repr

/-- The number of slots of a vector and the modulus of its entries. -/
structure Context where
  ringDimension : UInt64
  plaintextModulus : UInt64
  deriving DecidableEq, Repr

instance : Artifact ContextParams where
  toJson params :=
    .record [("ring_dimension", toJson params.ringDimension),
      ("plaintext_modulus", toJson params.plaintextModulus)]
  ofJson? value := do
    let [n, t] ← value.fields? ["ring_dimension", "plaintext_modulus"] | none
    return ⟨← ofJson? n, ← ofJson? t⟩

instance : Artifact Context where
  toJson context :=
    .record [("ring_dimension", toJson context.ringDimension),
      ("plaintext_modulus", toJson context.plaintextModulus)]
  ofJson? value := do
    let [n, t] ← value.fields? ["ring_dimension", "plaintext_modulus"] | none
    return ⟨← ofJson? n, ← ofJson? t⟩

/-- Whether a number is a power of two of at least 2. Subtracting one from such a number turns all
bits below its only one on, so the two have no bit in common. -/
def isRing (n : UInt64) : Bool :=
  2 ≤ n && n &&& (n - 1) == 0

/-- The context for the given parameters. The ring dimension must be a power of two of at least 2,
and the modulus must be at least 2 and fit 32 bits. -/
def Context.generate (params : ContextParams) : Except EngineError Context :=
  if !isRing params.ringDimension then .error (.invalidRingDimension params.ringDimension)
  else if params.plaintextModulus < 2 ∨ 0xffffffff < params.plaintextModulus then
    .error (.invalidPlaintextModulus params.plaintextModulus)
  else .ok ⟨params.ringDimension, params.plaintextModulus⟩

end CipherRelay.Scheme
