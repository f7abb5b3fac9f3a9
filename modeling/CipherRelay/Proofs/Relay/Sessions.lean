import CipherRelay.Proofs.Relay.Sequence
/-!
Sessions do not interfere. A message is answered from the slots of its own session and changes no
others, so what is heard in a session, and what is left in its slots, is what its own messages alone
would have brought about.
-/
namespace CipherRelay.Relay

open Mailbox

/-- Two relays that cannot be told apart in a session: their mailboxes run, and the slots of the
session hold the same in both. -/
structure Alike (session : SessionId) (first second : Relay) : Prop where
  context : first.context = second.context
  slots : ∃ here there, first.server = .running here ∧ second.server = .running there ∧
    ∀ kind, here.get? session kind = there.get? session kind

variable {ρ : Type} [RandomSource ρ]

/-- What a message is responded to depends on no slots but those that it is about. The count of the
slots cleared may differ, but it is not told to anybody. -/
theorem response_congr {first second : Relay} (hContext : first.context = second.context)
    {here there : Store} (hHere : first.server = .running here)
    (hThere : second.server = .running there) {session : SessionId} {message : Message}
    (hSlots : ∀ kind ∈ message.tag.slots, here.get? session kind = there.get? session kind)
    (source : ρ) :
    (first.dispatch source session message).response =
      (second.dispatch source session message).response := by
  obtain ⟨tag, payload⟩ := message
  have hSilent : handler? tag = none →
      (first.dispatch source session ⟨tag, payload⟩).response =
        (second.dispatch source session ⟨tag, payload⟩).response := by
    intro hHandler
    simp only [dispatch, hHandler]
  cases tag with
  | send kind =>
      by_cases hKind : kind.isStored
      · obtain ⟨_, hFirst, -⟩ := dispatch_store hHere hKind source session payload
        obtain ⟨_, hSecond, -⟩ := dispatch_store hThere hKind source session payload
        rw [← Message.send, hFirst, hSecond]
      · exact hSilent (handler?_eq_none (by simp [Tag.deposit?, hKind]) (by simp) (by simp))
  | request kind =>
      have hPlain : ∀ relay : Relay, relay.dispatch source session ⟨.request kind, payload⟩ =
          relay.dispatch source session (.request kind) :=
        fun relay => dispatch_request rfl source session
      rw [hPlain first, hPlain second]
      by_cases hKind : kind.isStored
      · have hSame := hSlots kind (by simp [Tag.slots_request hKind])
        rw [dispatch_fetch hHere hKind, dispatch_fetch hThere hKind, hSame]
      · cases kind with
        | cryptoContext => rw [dispatch_context, dispatch_context, hContext]
        | reEncryptionKey =>
            have hSame := hSlots .privateKey (by simp [Tag.slots])
            have hSame' := hSlots .publicKey (by simp [Tag.slots])
            have hOpening : ∀ cc, opening cc session (.request .reEncryptionKey) =
                .asks .deriveReEncryptionKey (.fetchMany session [.privateKey, .publicKey]) :=
              fun _ => rfl
            rw [(dispatch_of_asks (hOpening _) source).1, (dispatch_of_asks (hOpening _) source).1,
              hHere, hThere, hContext]
            simp only [Server.execute, Server.serve, Store.fetchMany, List.map_cons, List.map_nil,
              hSame, hSame']
        | _ => exact absurd rfl hKind
  | disconnect role =>
      have hPlain : ∀ relay : Relay, relay.dispatch source session ⟨.disconnect role, payload⟩ =
          relay.dispatch source session (.disconnect role) :=
        fun relay => dispatch_leave rfl source session
      rw [hPlain first, hPlain second, dispatch_disconnect hHere, dispatch_disconnect hThere]
  | serverAccept | ack | nack | deny => exact hSilent (handler?_eq_none rfl (by simp) (by simp))

namespace Alike

variable {session : SessionId} {first second : Relay}

theorem refl_start (session : SessionId) (cc : Scheme.Context) :
    Alike session ⟨cc, .start⟩ ⟨cc, .start⟩ :=
  ⟨rfl, .empty, .empty, rfl, rfl, fun _ => rfl⟩

/-- A message of the session is responded to alike. -/
theorem response (h : Alike session first second) (source : ρ) (message : Message) :
    (first.dispatch source session message).response =
      (second.dispatch source session message).response := by
  obtain ⟨hContext, here, there, hHere, hThere, hSlots⟩ := h
  exact response_congr hContext hHere hThere (fun kind _ => hSlots kind) source

/-- A message of the session leaves the two relays alike. -/
theorem dispatch (h : Alike session first second) (source : ρ) (message : Message) :
    Alike session (first.dispatch source session message).relay
      (second.dispatch source session message).relay := by
  obtain ⟨hContext, here, there, hHere, hThere, hSlots⟩ := h
  obtain ⟨hereAfter, hFirst, hUpdate⟩ := dispatch_slots hHere source session message
  obtain ⟨thereAfter, hSecond, hUpdate'⟩ := dispatch_slots hThere source session message
  rw [hFirst, hSecond]
  refine ⟨hContext, hereAfter, thereAfter, rfl, rfl, fun kind => ?_⟩
  rw [hUpdate, hUpdate', if_pos rfl, if_pos rfl, hSlots]

/-- A message of another session cannot be noticed. -/
theorem dispatch_elsewhere (h : Alike session first second) (source : ρ) {other : SessionId}
    (hOther : other ≠ session) (message : Message) :
    Alike session (first.dispatch source other message).relay second := by
  obtain ⟨hContext, here, there, hHere, hThere, hSlots⟩ := h
  obtain ⟨after, hFirst, hUpdate⟩ := dispatch_slots hHere source other message
  rw [hFirst]
  refine ⟨hContext, after, there, rfl, hThere, fun kind => ?_⟩
  rw [hUpdate, if_neg hOther, hSlots]

/-- Alike relays have the same slots in the session. -/
theorem get? (h : Alike session first second) (kind : ArtifactKind) :
    first.server.get? session kind = second.server.get? session kind := by
  obtain ⟨-, here, there, hHere, hThere, hSlots⟩ := h
  rw [hHere, hThere]
  exact hSlots kind

/-- One relay handles some messages, the other only those of the session: the responses in the
session are the same, and the relays stay alike. -/
theorem run (h : Alike session first second) (calls : List (Call ρ)) :
    (first.responses calls).filter (fun entry => entry.1.envelope.session = session) =
        second.responses (calls.filter fun call => call.envelope.session = session) ∧
      Alike session (first.after calls)
        (second.after (calls.filter fun call => call.envelope.session = session)) := by
  -- By induction on the messages; the two relays stay alike after each of them.
  induction calls generalizing first second with
  | nil => exact ⟨rfl, h⟩
  | cons call rest ih =>
      by_cases hSession : call.envelope.session = session
      · subst hSession
        obtain ⟨hResponses, hAfter⟩ :=
          ih (h.dispatch call.source call.envelope.message)
        simp only [responses, List.filter_cons, decide_true, if_true]
        exact ⟨by rw [hResponses, h.response], hAfter⟩
      · obtain ⟨hResponses, hAfter⟩ :=
          ih (h.dispatch_elsewhere call.source hSession call.envelope.message)
        simp only [responses, List.filter_cons, hSession, decide_false]
        exact ⟨hResponses, hAfter⟩

end Alike

/-- What a relay responds in a session, and what it leaves in the slots of the session, is what the
messages of the session alone bring about. -/
theorem sessions_do_not_interfere (cc : Scheme.Context) (calls : List (Call ρ))
    (session : SessionId) :
    ((⟨cc, .start⟩ : Relay).responses calls).filter
        (fun entry => entry.1.envelope.session = session) =
      (⟨cc, .start⟩ : Relay).responses
        (calls.filter fun call => call.envelope.session = session) ∧
    ∀ kind, ((⟨cc, .start⟩ : Relay).after calls).server.get? session kind =
      ((⟨cc, .start⟩ : Relay).after
        (calls.filter fun call => call.envelope.session = session)).server.get? session kind := by
  obtain ⟨hResponses, hAlike⟩ := (Alike.refl_start session cc).run calls
  exact ⟨hResponses, hAlike.get?⟩

end CipherRelay.Relay
