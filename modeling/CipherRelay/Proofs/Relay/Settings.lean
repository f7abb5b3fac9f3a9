import CipherRelay.Proofs.Party.History
import CipherRelay.Proofs.Scheme.Rotations
import CipherRelay.Proofs.Text.Numerals
import CipherRelay.Relay.Settings
/-!
Settings are accepted exactly when they can be used. Each of the four has its default, or the number
that is written for it, and these numbers must suit a context and a party. What is refused is told
by its first fault: the texts come first, in their order, and then the values. With accepted
settings there is a context, and a party sends its message once more when it is first asked to.
-/
namespace CipherRelay.Relay

/-- Something that can be set: its name, the greatest number that fits it, and where settings keep
it. -/
structure Tunable where
  name : String
  limit : Nat
  value : Settings → Nat

namespace Tunable

def backoff : Tunable where
  name := "HE_RELAY_NACK_BACKOFF_MS"
  limit := UInt64.size - 1
  value settings := settings.nackBackoff.toNat

def attempts : Tunable where
  name := "HE_RELAY_MAX_ATTEMPTS"
  limit := UInt32.size - 1
  value settings := settings.maxAttempts.toNat

def timeout : Tunable where
  name := "HE_RELAY_REPLY_TIMEOUT_MS"
  limit := UInt64.size - 1
  value settings := settings.replyTimeout.toNat

def dimension : Tunable where
  name := "HE_RELAY_RING_DIMENSION"
  limit := UInt64.size - 1
  value settings := settings.ringDimension.toNat

/-- All of them in the order in which their texts are read. -/
def all : List Tunable := [backoff, attempts, timeout, dimension]

/-- A tunable without a text has its default. A text gives a number within the limit, written as a
numeral between blanks. -/
def Has (tunable : Tunable) (lookup : String → Option String) (n : Nat) : Prop :=
  match lookup tunable.name with
  | none => n = tunable.value {}
  | some text => ∃ core, Text.IsCore text.toList core ∧ Text.IsNumeral core n ∧ n ≤ tunable.limit

/-- What is wrong with the text of a tunable, in words that begin with the text as it is. -/
def Fault (tunable : Tunable) (lookup : String → Option String) (reason : String) : Prop :=
  ∃ text core cause, lookup tunable.name = some text ∧ Text.IsCore text.toList core ∧
    Text.Misread tunable.limit core cause ∧ reason = Text.quote text ++ ": " ++ cause.message

variable {tunable : Tunable} {lookup : String → Option String} {n : Nat} {reason : String}

/-- What is read for a tunable. -/
def number (tunable : Tunable) (lookup : String → Option String) : Except RelayError Nat :=
  Settings.number lookup tunable.name tunable.limit (tunable.value {})

/-- A tunable that has a number is read as this number. -/
theorem Has.number (h : tunable.Has lookup n) : tunable.number lookup = .ok n := by
  unfold Has at h
  unfold Tunable.number Settings.number
  cases hText : lookup tunable.name with
  | none =>
      rw [hText] at h
      exact congrArg Except.ok h.symm
  | some text =>
      rw [hText] at h
      obtain ⟨core, hCore, hNumeral, hFits⟩ := h
      simp only [Text.trim_eq_iff.mpr hCore, Text.readNumeral_eq_ok_iff.mpr ⟨hNumeral, hFits⟩]

/-- A text that is wrong is told with its name and the reason. -/
theorem Fault.number (h : tunable.Fault lookup reason) :
    tunable.number lookup = .error (.invalidSetting tunable.name reason) := by
  obtain ⟨text, core, cause, hSome, hCore, hMisread, rfl⟩ := h
  unfold Tunable.number Settings.number
  simp only [hSome, Text.trim_eq_iff.mpr hCore, Text.readNumeral_eq_error_iff.mpr hMisread]

theorem Has.le (h : tunable.Has lookup n) (hDefault : tunable.value {} ≤ tunable.limit) :
    n ≤ tunable.limit := by
  unfold Has at h
  cases hText : lookup tunable.name with
  | none =>
      rw [hText] at h
      exact h.le.trans hDefault
  | some text =>
      rw [hText] at h
      obtain ⟨-, -, -, hFits⟩ := h
      exact hFits

/-- A tunable has a number, or its text is wrong. -/
theorem has_or_fault (tunable : Tunable) (lookup : String → Option String) :
    (∃ n, tunable.Has lookup n) ∨ ∃ reason, tunable.Fault lookup reason := by
  cases hText : lookup tunable.name with
  | none => exact .inl ⟨tunable.value {}, by simp [Has, hText]⟩
  | some text =>
      have hCore := Text.isCore_trim text.toList
      cases hRead : Text.readNumeral tunable.limit (Text.trim text.toList) with
      | ok n =>
          obtain ⟨hNumeral, hFits⟩ := Text.readNumeral_eq_ok_iff.mp hRead
          exact .inl ⟨n, by simpa only [Has, hText] using ⟨_, hCore, hNumeral, hFits⟩⟩
      | error cause =>
          have hMisread := Text.readNumeral_eq_error_iff.mp hRead
          exact .inr ⟨_, text, _, cause, hText, hCore, hMisread, rfl⟩

/-- The first of some tunables whose text is wrong. -/
inductive FirstFault (lookup : String → Option String) : List Tunable → Tunable → String → Prop
  | here {tunable : Tunable} {rest : List Tunable} {reason : String}
      (hFault : tunable.Fault lookup reason) : FirstFault lookup (tunable :: rest) tunable reason
  | later {first tunable : Tunable} {rest : List Tunable} {reason : String} {n : Nat}
      (hFirst : first.Has lookup n) (hRest : FirstFault lookup rest tunable reason) :
      FirstFault lookup (first :: rest) tunable reason

/-- All of some tunables have a number, or there is a first whose text is wrong. -/
theorem all_has_or_firstFault (lookup : String → Option String) (tunables : List Tunable) :
    (∀ tunable ∈ tunables, ∃ n, tunable.Has lookup n) ∨
      ∃ tunable reason, FirstFault lookup tunables tunable reason := by
  induction tunables with
  | nil => exact .inl (by simp)
  | cons first rest ih =>
      rcases first.has_or_fault lookup with ⟨n, hFirst⟩ | ⟨reason, hFault⟩
      · rcases ih with hRest | ⟨tunable, reason, hRest⟩
        · exact .inl (List.forall_mem_cons.mpr ⟨⟨n, hFirst⟩, hRest⟩)
        · exact .inr ⟨tunable, reason, .later hFirst hRest⟩
      · exact .inr ⟨first, reason, .here hFault⟩

end Tunable

namespace Settings

variable {lookup : String → Option String} {settings : Settings}

/-- The settings that the texts of a lookup give, whether they can be used or not. -/
def Read (lookup : String → Option String) (settings : Settings) : Prop :=
  ∀ tunable ∈ Tunable.all, tunable.Has lookup (tunable.value settings)

/-- Settings are read when each of the four is. -/
theorem read_iff : Read lookup settings ↔
    Tunable.backoff.Has lookup settings.nackBackoff.toNat ∧
      Tunable.attempts.Has lookup settings.maxAttempts.toNat ∧
      Tunable.timeout.Has lookup settings.replyTimeout.toNat ∧
      Tunable.dimension.Has lookup settings.ringDimension.toNat := by
  simp only [Read, Tunable.all, List.forall_mem_cons, List.not_mem_nil, false_implies,
    implies_true, and_true]
  rfl

/-- Settings that can be used: the ring dimension is a power of two of at least 2, and there is an
attempt. -/
structure Usable (settings : Settings) : Prop where
  ring : ∃ k, settings.ringDimension.toNat = 2 ^ (k + 1)
  patient : 1 ≤ settings.maxAttempts

/-- The first fault of a lookup. A value is at fault only if all texts give numbers. -/
inductive FirstOffender (lookup : String → Option String) : RelayError → Prop
  | text {tunable : Tunable} {reason : String}
      (hFault : Tunable.FirstFault lookup Tunable.all tunable reason) :
      FirstOffender lookup (.invalidSetting tunable.name reason)
  | ring {settings : Settings} (hRead : Read lookup settings)
      (hRing : ¬∃ k, settings.ringDimension.toNat = 2 ^ (k + 1)) :
      FirstOffender lookup (.invalidSetting Tunable.dimension.name
        (Text.decimal settings.ringDimension.toNat ++ " is not a power of two of at least 2"))
  | patience {settings : Settings} (hRead : Read lookup settings)
      (hRing : ∃ k, settings.ringDimension.toNat = 2 ^ (k + 1))
      (hNone : settings.maxAttempts = 0) :
      FirstOffender lookup
        (.invalidSetting Tunable.attempts.name "must allow at least one attempt")

/-- The texts are read in order, and then the values are judged. -/
theorem ofLookup_eq (lookup : String → Option String) : ofLookup lookup = (do
    let backoff ← Tunable.backoff.number lookup
    let attempts ← Tunable.attempts.number lookup
    let timeout ← Tunable.timeout.number lookup
    let dimension ← Tunable.dimension.number lookup
    if !Scheme.isRing dimension.toUInt64 then
      throw (.invalidSetting Tunable.dimension.name
        (Text.decimal dimension ++ " is not a power of two of at least 2"))
    if attempts = 0 then
      throw (.invalidSetting Tunable.attempts.name "must allow at least one attempt")
    return ⟨backoff.toUInt64, attempts.toUInt32, timeout.toUInt64, dimension.toUInt64⟩) := rfl

/-- The first wrong text is told, whatever comes after it. -/
theorem ofLookup_of_firstFault {tunable : Tunable} {reason : String}
    (h : Tunable.FirstFault lookup Tunable.all tunable reason) :
    ofLookup lookup = .error (.invalidSetting tunable.name reason) := by
  rw [ofLookup_eq]
  cases h with
  | here hFault => rw [hFault.number]; rfl
  | later hBackoff h =>
      rw [hBackoff.number]
      cases h with
      | here hFault => rw [hFault.number]; rfl
      | later hAttempts h =>
          rw [hAttempts.number]
          cases h with
          | here hFault => rw [hFault.number]; rfl
          | later hTimeout h =>
              rw [hTimeout.number]
              cases h with
              | here hFault => rw [hFault.number]; rfl
              | later hDimension h => cases h

/-- Where all texts give numbers, the ring dimension is judged first, and then the attempts. -/
theorem Read.ofLookup (h : Read lookup settings) : Settings.ofLookup lookup =
    if Scheme.isRing settings.ringDimension then
      if settings.maxAttempts = 0 then
        .error (.invalidSetting Tunable.attempts.name "must allow at least one attempt")
      else .ok settings
    else .error (.invalidSetting Tunable.dimension.name
      (Text.decimal settings.ringDimension.toNat ++ " is not a power of two of at least 2")) := by
  obtain ⟨hBackoff, hAttempts, hTimeout, hDimension⟩ := read_iff.mp h
  have hZero : settings.maxAttempts.toNat = 0 ↔ settings.maxAttempts = 0 :=
    UInt32.toNat_inj (b := 0)
  rw [ofLookup_eq, hBackoff.number, hAttempts.number, hTimeout.number, hDimension.number]
  by_cases hRing : Scheme.isRing settings.ringDimension
  · by_cases hNone : settings.maxAttempts = 0
    · simp [hRing, hNone, bind, Except.bind, throw, throwThe, MonadExceptOf.throw]
    · simp [hRing, hNone, hZero, bind, Except.bind, pure, Except.pure]
  · simp [hRing, bind, Except.bind, throw, throwThe, MonadExceptOf.throw]

/-- The texts of a lookup give settings, or there is a first whose text is wrong. -/
theorem read_or_firstFault (lookup : String → Option String) :
    (∃ settings, Read lookup settings) ∨
      ∃ tunable reason, Tunable.FirstFault lookup Tunable.all tunable reason := by
  rcases Tunable.all_has_or_firstFault lookup Tunable.all with hAll | hFault
  · left
    simp only [Tunable.all, List.forall_mem_cons] at hAll
    obtain ⟨⟨backoff, hBackoff⟩, ⟨attempts, hAttempts⟩, ⟨timeout, hTimeout⟩,
      ⟨dimension, hDimension⟩, -⟩ := hAll
    refine ⟨⟨backoff.toUInt64, attempts.toUInt32, timeout.toUInt64, dimension.toUInt64⟩,
      read_iff.mpr ?_⟩
    -- No number is cut off by the width of its field.
    have hWide {n : Nat} (h : n ≤ UInt64.size - 1) : n.toUInt64.toNat = n :=
      UInt64.toNat_ofNat_of_lt' (by simp [UInt64.size] at h ⊢; omega)
    have hNarrow {n : Nat} (h : n ≤ UInt32.size - 1) : n.toUInt32.toNat = n :=
      UInt32.toNat_ofNat_of_lt' (by simp [UInt32.size] at h ⊢; omega)
    simp only [hWide (hBackoff.le (by decide)), hNarrow (hAttempts.le (by decide)),
      hWide (hTimeout.le (by decide)), hWide (hDimension.le (by decide))]
    exact ⟨hBackoff, hAttempts, hTimeout, hDimension⟩
  · exact .inr hFault

theorem Usable.isRing (h : settings.Usable) : Scheme.isRing settings.ringDimension :=
  Scheme.isRing_iff.mpr h.ring

theorem Read.accepted (h : Read lookup settings) (hUsable : settings.Usable) :
    Settings.ofLookup lookup = .ok settings := by
  have hSome : settings.maxAttempts ≠ 0 := by
    intro hNone
    exact absurd (hNone ▸ hUsable.patient) (by decide)
  rw [h.ofLookup, if_pos hUsable.isRing, if_neg hSome]

theorem FirstOffender.refused {error : RelayError} (h : FirstOffender lookup error) :
    ofLookup lookup = .error error := by
  cases h with
  | text hFault => exact ofLookup_of_firstFault hFault
  | ring hRead hRing => rw [hRead.ofLookup, if_neg (mt Scheme.isRing_iff.mp hRing)]
  | patience hRead hRing hNone =>
      rw [hRead.ofLookup, if_pos (Scheme.isRing_iff.mpr hRing), if_pos hNone]

/-- A lookup gives settings that can be used, or there is a first fault. -/
theorem usable_or_firstOffender (lookup : String → Option String) :
    (∃ settings, Read lookup settings ∧ settings.Usable) ∨
      ∃ error, FirstOffender lookup error := by
  rcases read_or_firstFault lookup with ⟨settings, hRead⟩ | ⟨tunable, reason, hFault⟩
  · by_cases hRing : ∃ k, settings.ringDimension.toNat = 2 ^ (k + 1)
    · by_cases hNone : settings.maxAttempts = 0
      · exact .inr ⟨_, .patience hRead hRing hNone⟩
      · have hSome : 0 < settings.maxAttempts.toNat :=
          Nat.pos_of_ne_zero fun hZero => hNone (UInt32.toNat_inj.mp hZero)
        exact .inl ⟨settings, hRead, hRing, UInt32.le_iff_toNat_le.mpr hSome⟩
    · exact .inr ⟨_, .ring hRead hRing⟩
  · exact .inr ⟨_, .text hFault⟩

/-- Exactly the settings that can be used are accepted. -/
theorem ofLookup_eq_ok_iff :
    ofLookup lookup = .ok settings ↔ Read lookup settings ∧ settings.Usable :=
  (result_eq_iff (fun _ h => h.1.accepted h.2) (fun _ => FirstOffender.refused)
    (usable_or_firstOffender lookup)).1 settings

theorem ofLookup_eq_error_iff {error : RelayError} :
    ofLookup lookup = .error error ↔ FirstOffender lookup error :=
  (result_eq_iff (fun _ h => h.1.accepted h.2) (fun _ => FirstOffender.refused)
    (usable_or_firstOffender lookup)).2 error

/-- Settings that can be used give a context with the usual modulus. -/
theorem Usable.generate (h : settings.Usable) :
    Scheme.Context.generate settings.params = .ok ⟨settings.ringDimension, 65537⟩ := by
  have hRing : Scheme.isRing settings.params.ringDimension := h.isRing
  have hModulus : ¬((65537 : UInt64) < 2 ∨ 0xffffffff < (65537 : UInt64)) := by decide
  unfold Scheme.Context.generate
  rw [hRing, Bool.not_true, if_neg Bool.false_ne_true]
  exact if_neg hModulus

open Party in
/-- What the settings of a lookup are good for. -/
structure Judged (lookup : String → Option String) : Prop where
  /-- They are accepted exactly when every text gives a number and the values can be used. -/
  accepted : ∀ settings, ofLookup lookup = .ok settings ↔ Read lookup settings ∧ settings.Usable
  /-- Else the first fault is reported. -/
  refused : ∀ error, ofLookup lookup = .error error ↔ FirstOffender lookup error
  /-- With accepted settings there is a context. -/
  context : ∀ settings, ofLookup lookup = .ok settings →
    Scheme.Context.generate settings.params = .ok ⟨settings.ringDimension, 65537⟩
  /-- A party with accepted settings that has sent a message, and nothing since, sends it once more
  on the retry tag. -/
  patience : ∀ settings, ofLookup lookup = .ok settings →
    ∀ {S L ρ : Type} [DecidableEq S] [ToString S] (table : StepTable S L ρ) (data : L)
      (turns : List (ρ × Message)) (earlier later : List Upshot) (sent : Message),
      let machine := Machine.start table data settings.policy
      machine.upshots turns = earlier ++ .ok (.send sent) :: later → Quiet later →
        ∀ source message, (machine.after turns).Retries message →
          ((machine.after turns).onMessage source message).outcome = .ok (.resend sent)

/-- Settings are accepted exactly when they can be used, whatever the texts are. -/
theorem accepts_exactly_the_usable (lookup : String → Option String) : Judged lookup where
  accepted _ := ofLookup_eq_ok_iff
  refused _ := ofLookup_eq_error_iff
  context _ hAccepted := (ofLookup_eq_ok_iff.mp hAccepted).2.generate
  patience _ hAccepted _ _ _ _ _ _ _ _ _ _ _ hUpshots hQuiet _ _ hRetries :=
    Party.Machine.resends_when_first_asked (ofLookup_eq_ok_iff.mp hAccepted).2.patient hUpshots
      hQuiet hRetries

example : ofLookup (fun name => if name = "HE_RELAY_MAX_ATTEMPTS" then some " +012 " else none) =
    .ok { maxAttempts := 12 } := rfl

end Settings

end CipherRelay.Relay
