import CipherRelay.Proofs.Relay.Replies
import CipherRelay.Proofs.Wire.Arrivals
/-!
What has been accepted can be asked for. A payload that a relay holds has come in a frame together
with the tag that sends it, and the reply to a request for it has the same session and that tag. So
the reply is no longer than what has come, up to the last byte of the limit.
-/
namespace CipherRelay.Relay

variable {ρ : Type} [RandomSource ρ]

/-- What is held of an artifact has been sent in an envelope that has arrived. -/
theorem arrives_of_held (cc : Scheme.Context) {calls : List (Call ρ)}
    (hCalls : ∀ call ∈ calls, Wire.Arrives call.envelope) {session : SessionId}
    {kind : ArtifactKind} (hKind : kind.isStored) {payload : Bytes}
    (hHeld : ((⟨cc, .start⟩ : Relay).after calls).server.get? session kind = some payload) :
    Wire.Arrives ⟨session, .send kind payload⟩ := by
  obtain ⟨store, hServer, hSlots⟩ := slots_after cc calls
  rw [hServer] at hHeld
  obtain ⟨before, call, later, rfl, ⟨hSession, hTag⟩, hPayload, -⟩ :=
    (hSlots session kind payload hKind).mp hHeld
  rw [← hSession, ← hPayload, Message.send, ← hTag]
  exact hCalls call (List.mem_append_right before List.mem_cons_self)

/-- Whatever was accepted can be served. The relay may have been brought to where it is by any
envelopes in any sessions, told of any streams of bytes: a request for a kind that is stored is
answered with what is held of it or with the notice that nothing is, the answer has a frame, and the
connection that has asked goes on. -/
theorem stored_kinds_served (cc : Scheme.Context) {calls : List (Call ρ)}
    (hCalls : ∀ call ∈ calls, ∃ stream : Bytes,
      .envelope call.envelope ∈ (Wire.Decoder.start.feed stream).2)
    (session : SessionId) {kind : ArtifactKind} (hKind : kind.isStored) {request : Message}
    (hTag : request.tag = .request kind) (source : ρ) :
    ∃ relay reply bytes, relay = (⟨cc, .start⟩ : Relay).after calls ∧
      reply = fetchAnswer kind (relay.server.get? session kind) ∧
      relay.dispatch source session request = ⟨.handled (some reply), relay, source⟩ ∧
      Wire.frame? ⟨session, reply⟩ = some bytes ∧
      relay.answer source (.envelope ⟨session, request⟩) =
        ⟨[⟨session, reply⟩], true, relay, source⟩ := by
  have hArrived : ∀ call ∈ calls, Wire.Arrives call.envelope :=
    fun call hMem => Wire.arrives_iff_told.mpr (hCalls call hMem)
  obtain ⟨store, hServer, -⟩ := slots_after cc calls
  have hGet : ((⟨cc, .start⟩ : Relay).after calls).server.get? session kind =
      store.get? session kind := by
    rw [hServer]
    rfl
  have hDispatch := dispatch_fetch hServer hKind source session
  rw [← dispatch_request hTag, ← hGet] at hDispatch
  have hFits : Wire.Arrives ⟨session, fetchAnswer kind
      (((⟨cc, .start⟩ : Relay).after calls).server.get? session kind)⟩ := by
    cases hHeld : ((⟨cc, .start⟩ : Relay).after calls).server.get? session kind with
    | none => exact Wire.arrives_bare session (.nack kind)
    | some payload => exact arrives_of_held cc hArrived hKind hHeld
  refine ⟨_, _, _, rfl, rfl, hDispatch,
    Wire.frame?_eq_some_iff.mpr ⟨Wire.arrives_iff.mp hFits, rfl⟩, ?_⟩
  rw [answer_replied hDispatch, sendReply_eq _ hFits]

/-- An artifact that has come in a body of the greatest length. -/
def fullBody : Call Congruential where
  line := 0
  envelope := ⟨.default, .send (.partialLead .mult) (List.replicate (Wire.bodyLimit - 52) 7)⟩
  source := ⟨0⟩

theorem stored_kinds_served_fullBody :
    (Wire.body fullBody.envelope).length = Wire.bodyLimit ∧
    (∃ stream : Bytes, .envelope fullBody.envelope ∈ (Wire.Decoder.start.feed stream).2) ∧
    (∃ bytes, Wire.frame? fullBody.envelope = some bytes) ∧
    (((⟨⟨4, 6⟩, .start⟩ : Relay).after [fullBody]).answer (⟨1⟩ : Congruential)
      (.envelope ⟨.default, .request (.partialLead .mult)⟩)).replies = [fullBody.envelope] := by
  have hLength : (Wire.body fullBody.envelope).length = Wire.bodyLimit := by
    have hTag : (Wire.writeTag fullBody.envelope.message.tag).length = 12 := by decide
    have hPayload : fullBody.envelope.message.payload.length = Wire.bodyLimit - 52 :=
      List.length_replicate
    rw [Wire.length_body, hTag, hPayload]
    unfold Wire.bodyLimit
    omega
  have hTold : ∃ stream : Bytes,
      .envelope fullBody.envelope ∈ (Wire.Decoder.start.feed stream).2 :=
    Wire.arrives_iff_told.mp (Wire.arrives_iff.mpr hLength.le)
  have hKind : (ArtifactKind.partialLead .mult).isStored := rfl
  have hSent : fullBody.envelope.message.tag = .send (.partialLead .mult) := rfl
  have hAsked : (Message.request (.partialLead .mult)).tag = .request (.partialLead .mult) := rfl
  have hHeld : ((⟨⟨4, 6⟩, .start⟩ : Relay).after [fullBody]).server.get? .default
      (.partialLead .mult) = some fullBody.envelope.message.payload :=
    (send_after ⟨4, 6⟩ [] hKind hSent).2
  have hCalls : ∀ call ∈ [fullBody], ∃ stream : Bytes,
      .envelope call.envelope ∈ (Wire.Decoder.start.feed stream).2 := by
    simpa using hTold
  obtain ⟨relay, reply, bytes, rfl, rfl, -, hFrame, hAnswer⟩ :=
    stored_kinds_served ⟨4, 6⟩ hCalls .default hKind hAsked (⟨1⟩ : Congruential)
  rw [hHeld] at hFrame hAnswer
  exact ⟨hLength, hTold, ⟨bytes, hFrame⟩, congrArg Service.replies hAnswer⟩

end CipherRelay.Relay
