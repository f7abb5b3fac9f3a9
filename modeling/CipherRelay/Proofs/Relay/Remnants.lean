import CipherRelay.Proofs.Relay.Sessions
/-!
Remnants. A leave that clears slots may still be on its way to the relay when others use the same
session. As long as these do not touch a slot that the leave clears, they cannot tell the relay from
one where the slots have been cleared already, and once the leave has been taken nobody can.
-/
namespace CipherRelay.Relay

/-- A relay, and one that is the same but for some slots of a session, which are cleared. -/
structure Cleared (session : SessionId) (clears : ArtifactKind → Bool) (relay seen : Relay) :
    Prop where
  context : relay.context = seen.context
  slots : ∃ here there, relay.server = .running here ∧ seen.server = .running there ∧
    ∀ s kind, there.get? s kind =
      if session = s ∧ clears kind then none else here.get? s kind

namespace Cleared

variable {ρ : Type} [RandomSource ρ] {session other : SessionId} {clears : ArtifactKind → Bool}
  {relay seen : Relay} {message : Message}

/-- A message that is not about the cleared slots is responded to alike. -/
theorem response (h : Cleared session clears relay seen)
    (hUntouched : session = other → ∀ kind ∈ message.tag.slots, clears kind = false) (source : ρ) :
    (relay.dispatch source other message).response =
      (seen.dispatch source other message).response := by
  obtain ⟨hContext, here, there, hHere, hThere, hSlots⟩ := h
  apply response_congr hContext hHere hThere
  intro kind hMem
  rw [hSlots, if_neg]
  rintro ⟨hSession, hClears⟩
  rw [hUntouched hSession kind hMem] at hClears
  cases hClears

/-- A message that fills no cleared slot leaves the two relays as they are to each other. -/
theorem dispatch (h : Cleared session clears relay seen)
    (hFills : session = other → ∀ kind, message.tag.deposit? = some kind → clears kind = false)
    (source source' : ρ) :
    Cleared session clears (relay.dispatch source other message).relay
      (seen.dispatch source' other message).relay := by
  obtain ⟨hContext, here, there, hHere, hThere, hSlots⟩ := h
  obtain ⟨hereAfter, hRelay, hUpdate⟩ := dispatch_slots hHere source other message
  obtain ⟨thereAfter, hSeen, hUpdate'⟩ := dispatch_slots hThere source' other message
  rw [hRelay, hSeen]
  refine ⟨hContext, hereAfter, thereAfter, rfl, rfl, fun s kind => ?_⟩
  rw [hUpdate, hUpdate', hSlots]
  by_cases hCleared : session = s ∧ clears kind
  · have hDeposit : other = s → message.tag.deposit? ≠ some kind := by
      intro hOther hSome
      have hKept := hFills (hCleared.1.trans hOther.symm) kind hSome
      rw [hCleared.2] at hKept
      cases hKept
    rw [if_pos hCleared, if_pos hCleared]
    split
    · simp [Message.update, hDeposit ‹_›]
    · rfl
  · rw [if_neg hCleared, if_neg hCleared]

/-- Once the relay has taken the message that clears the slots, there is no difference left. -/
theorem leave (h : Cleared session message.tag.clears relay seen)
    (hDeposit : message.tag.deposit? = none) (source : ρ) :
    Cleared session (fun _ => false) (relay.dispatch source session message).relay seen := by
  obtain ⟨hContext, here, there, hHere, hThere, hSlots⟩ := h
  obtain ⟨after, hRelay, hUpdate⟩ := dispatch_slots hHere source session message
  rw [hRelay]
  refine ⟨hContext, after, there, rfl, hThere, fun s kind => ?_⟩
  rw [hSlots, hUpdate]
  by_cases hSession : session = s <;> simp [Message.update, hDeposit, hSession]

end Cleared

/-- A relay is to the one that has taken a message as the slots that the message clears. -/
theorem cleared_dispatch {ρ : Type} [RandomSource ρ] {relay : Relay} {store : Mailbox.Store}
    (hServer : relay.server = .running store) (source : ρ) (session : SessionId) (message : Message)
    (hDeposit : message.tag.deposit? = none) :
    Cleared session message.tag.clears relay (relay.dispatch source session message).relay := by
  obtain ⟨after, hRelay, hUpdate⟩ := dispatch_slots hServer source session message
  rw [hRelay]
  refine ⟨rfl, store, after, hServer, rfl, fun s kind => ?_⟩
  rw [hUpdate]
  by_cases hSession : session = s <;> simp [Message.update, hDeposit, hSession]

end CipherRelay.Relay
