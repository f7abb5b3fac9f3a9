import CipherRelay.Party.Machine
import CipherRelay.Relay.Error
import CipherRelay.Text.Blank
import CipherRelay.Text.Numeral
import CipherRelay.Text.Quoted
/-!
Settings. They come as texts under fixed names; a missing one has its default. All four texts are
read before any value is judged, and then the values must be usable: the ring dimension must be one
that a context accepts, and a party must be allowed at least one attempt.
-/
namespace CipherRelay.Relay

/-- What can be set. Times are in milliseconds. -/
structure Settings where
  nackBackoff : UInt64 := 1000
  maxAttempts : UInt32 := 600
  replyTimeout : UInt64 := 30000
  ringDimension : UInt64 := 256
  deriving DecidableEq, Repr

namespace Settings

/-- The number under a name. Blanks around it do not count, but an error shows the text as it is. -/
def number (lookup : String → Option String) (name : String) (limit default : Nat) :
    Except RelayError Nat :=
  match lookup name with
  | none => .ok default
  | some text =>
      match Text.readNumeral limit (Text.trim text.toList) with
      | .ok n => .ok n
      | .error cause => .error (.invalidSetting name (Text.quote text ++ ": " ++ cause.message))

/-- The settings of a lookup. -/
def ofLookup (lookup : String → Option String) : Except RelayError Settings := do
  let defaults : Settings := {}
  let backoff ← number lookup "HE_RELAY_NACK_BACKOFF_MS" (UInt64.size - 1)
    defaults.nackBackoff.toNat
  let attempts ← number lookup "HE_RELAY_MAX_ATTEMPTS" (UInt32.size - 1)
    defaults.maxAttempts.toNat
  let timeout ← number lookup "HE_RELAY_REPLY_TIMEOUT_MS" (UInt64.size - 1)
    defaults.replyTimeout.toNat
  let dimension ← number lookup "HE_RELAY_RING_DIMENSION" (UInt64.size - 1)
    defaults.ringDimension.toNat
  if !Scheme.isRing dimension.toUInt64 then
    throw (.invalidSetting "HE_RELAY_RING_DIMENSION"
      (Text.decimal dimension ++ " is not a power of two of at least 2"))
  if attempts = 0 then
    throw (.invalidSetting "HE_RELAY_MAX_ATTEMPTS" "must allow at least one attempt")
  return ⟨backoff.toUInt64, attempts.toUInt32, timeout.toUInt64, dimension.toUInt64⟩

/-- How patient a party is under these settings. -/
def policy (settings : Settings) : Party.RetryPolicy where
  backoff := settings.nackBackoff.toNat
  maxAttempts := settings.maxAttempts
  replyTimeout := settings.replyTimeout.toNat

/-- What a context is asked for under these settings. -/
def params (settings : Settings) : Scheme.ContextParams :=
  { ringDimension := settings.ringDimension }

end Settings

end CipherRelay.Relay
