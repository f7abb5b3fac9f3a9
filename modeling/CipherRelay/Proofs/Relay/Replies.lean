import CipherRelay.Proofs.Relay.Capacity
import CipherRelay.Proofs.Wire.Streams
import CipherRelay.Relay.Service
/-!
What the relay replies. What holds no envelope is denied, what asks for an answer gets one reply in
its session, and everything else is passed over. A handler does not fail, whatever it is given. Only
a derived key can be too large to be sent.
-/
namespace CipherRelay

/-- Whether the relay replies to messages with this tag. -/
def Tag.isAnswered : Tag → Bool
  | .send kind => kind.isStored
  | .request kind => kind.isStored || kind = .cryptoContext || kind = .reEncryptionKey
  | _ => false

theorem Tag.isAnswered_request (kind : ArtifactKind) : (Tag.request kind).isAnswered := by
  cases kind <;> rfl

namespace Relay

/-- The replies to what has arrived. -/
inductive AnsweredBy : Wire.Item → List Envelope → Prop
  /-- What holds no envelope is denied. -/
  | denied : AnsweredBy .malformed [denial]
  /-- An artifact that can be stored is acknowledged. -/
  | stored {session : SessionId} {kind : ArtifactKind} {payload : Bytes}
      (isStored : kind.isStored) :
      AnsweredBy (.envelope ⟨session, .send kind payload⟩) [⟨session, .bare (.ack kind)⟩]
  /-- A request is answered with the artifact, or that it is not there. -/
  | requested {session : SessionId} {kind : ArtifactKind} {payload : Bytes} {reply : Message}
      (about : reply.tag = .send kind ∨ reply.tag = .nack kind) :
      AnsweredBy (.envelope ⟨session, .request kind, payload⟩) [⟨session, reply⟩]
  /-- Everything else is passed over. -/
  | passed {envelope : Envelope} (unanswered : envelope.message.tag.isAnswered = false) :
      AnsweredBy (.envelope envelope) []

/-- An envelope gets exactly one reply or none, as its tag asks for. -/
theorem AnsweredBy.length_eq {envelope : Envelope} {replies : List Envelope}
    (h : AnsweredBy (.envelope envelope) replies) :
    replies.length = if envelope.message.tag.isAnswered then 1 else 0 := by
  cases h with
  | stored hStored => simp [Message.send, Tag.isAnswered, hStored]
  | requested => simp [Tag.isAnswered_request]
  | passed hUnanswered => simp [hUnanswered]

/-- As many replies are sent as there are envelopes, if each of them is to be answered. -/
theorem AnsweredBy.length_flatten {envelopes : List Envelope} {answers : List (List Envelope)}
    (h : List.Forall₂ AnsweredBy (envelopes.map .envelope) answers)
    (hTags : ∀ envelope ∈ envelopes, envelope.message.tag.isAnswered) :
    answers.flatten.length = envelopes.length := by
  induction envelopes generalizing answers with
  | nil =>
      cases h
      rfl
  | cons envelope rest ih =>
      obtain ⟨hTag, hTags⟩ := List.forall_mem_cons.mp hTags
      cases h with
      | cons hFirst hRest =>
          rw [List.flatten_cons, List.length_append, hFirst.length_eq, if_pos hTag,
            ih hRest hTags, List.length_cons, Nat.add_comm]

variable {ρ : Type} [RandomSource ρ] {relay : Relay}

/-- The service goes on after the replies that something asks for. -/
def Service.Satisfies (service : Service ρ) (item : Wire.Item) : Prop :=
  service.goesOn = true ∧ AnsweredBy item service.replies

/-- Whether a frame asks for a derived key and the key fits no frame. -/
def Overtaxes (relay : Relay) (source : ρ) (item : Wire.Item) : Prop :=
  ∃ envelope key, item = .envelope envelope ∧ envelope.message.tag = .request .reEncryptionKey ∧
    (relay.dispatch source envelope.session envelope.message).response =
      .handled (some (.send .reEncryptionKey key)) ∧
    Wire.frame? ⟨envelope.session, .send .reEncryptionKey key⟩ = none

omit [RandomSource ρ] in
/-- A reply that fits its frame is sent, and the connection stays open. -/
theorem sendReply_eq (source : ρ) {envelope : Envelope} (h : Wire.Arrives envelope) :
    relay.sendReply source envelope = ⟨[envelope], true, relay, source⟩ := by
  have hFrame : Wire.frame? envelope = some (Wire.framed (Wire.body envelope)) :=
    Wire.frame?_eq_some_iff.mpr ⟨Wire.arrives_iff.mp h, rfl⟩
  rw [sendReply, hFrame]

/-- A frame without an envelope is denied, and the connection stays open. -/
theorem answer_malformed (source : ρ) :
    relay.answer source .malformed = ⟨[denial], true, relay, source⟩ :=
  have hFits : Wire.Arrives denial := Wire.arrives_bare .default .deny
  sendReply_eq source hFits

/-- The reply goes to the session of its envelope. -/
theorem answer_replied {after : Relay} {source later : ρ} {envelope : Envelope} {reply : Message}
    (h : relay.dispatch source envelope.session envelope.message =
      ⟨.handled (some reply), after, later⟩) :
    relay.answer source (.envelope envelope) =
      after.sendReply later ⟨envelope.session, reply⟩ := by
  simp only [answer, h]

/-- A message that has no handler is not answered. -/
theorem answer_unhandled {envelope : Envelope} (h : handler? envelope.message.tag = none)
    (source : ρ) : relay.answer source (.envelope envelope) = ⟨[], true, relay, source⟩ := by
  simp only [answer, dispatch, h]

/-- Whether the reply is sent or not, the relay is left as the message leaves it. -/
theorem relay_answer (source : ρ) (envelope : Envelope) :
    (relay.answer source (.envelope envelope)).relay =
      (relay.dispatch source envelope.session envelope.message).relay := by
  have hSend : ∀ (after : Relay) (later : ρ) (reply : Envelope),
      (after.sendReply later reply).relay = after := by
    intro after later reply
    unfold sendReply
    split <;> rfl
  simp only [answer]
  split
  · rfl
  · rfl
  · exact hSend _ _ _
  · rfl

/-- An artifact is stored and acknowledged. -/
theorem answer_store {store : Mailbox.Store} (hServer : relay.server = .running store)
    {kind : ArtifactKind} (hKind : kind.isStored) (source : ρ) (session : SessionId)
    (payload : Bytes) :
    ∃ after, relay.answer source (.envelope ⟨session, .send kind payload⟩) =
        ⟨[⟨session, .bare (.ack kind)⟩], true, { relay with server := .running after }, source⟩ ∧
      ∀ s k, after.get? s k =
        if session = s ∧ kind = k then some payload else store.get? s k := by
  obtain ⟨after, hDispatch, hSlots⟩ := dispatch_store hServer hKind source session payload
  refine ⟨after, ?_, hSlots⟩
  rw [answer_replied hDispatch, sendReply_eq _ (Wire.arrives_bare _ _)]

theorem satisfies_unhandled {session : SessionId} {tag : Tag} (payload : Bytes)
    (hAnswered : tag.isAnswered = false) (hHandler : handler? tag = none) (source : ρ) :
    (relay.answer source (.envelope ⟨session, tag, payload⟩)).Satisfies
      (.envelope ⟨session, tag, payload⟩) := by
  rw [answer_unhandled hHandler]
  exact ⟨rfl, .passed hAnswered⟩

theorem satisfies_request {after : Relay} {source later : ρ} {session : SessionId}
    {kind : ArtifactKind} {reply : Message} (payload : Bytes)
    (hDispatch : relay.dispatch source session (.request kind) =
      ⟨.handled (some reply), after, later⟩)
    (hTag : reply.tag = .send kind ∨ reply.tag = .nack kind)
    (hFits : Wire.Arrives ⟨session, reply⟩) :
    (relay.answer source (.envelope ⟨session, .request kind, payload⟩)).Satisfies
      (.envelope ⟨session, .request kind, payload⟩) := by
  have hSame : (⟨.request kind, payload⟩ : Message).tag = .request kind := rfl
  rw [← dispatch_request hSame] at hDispatch
  rw [answer_replied hDispatch, sendReply_eq _ hFits]
  exact ⟨rfl, .requested hTag⟩

namespace Healthy

/-- An artifact is acknowledged or refused, under its own kind. -/
theorem answer_send (h : relay.Healthy) (source : ρ) (session : SessionId) (kind : ArtifactKind)
    (payload : Bytes) : (relay.answer source (.envelope ⟨session, .send kind, payload⟩)).Satisfies
      (.envelope ⟨session, .send kind, payload⟩) := by
  obtain ⟨-, store, hServer, -⟩ := h
  by_cases hKind : kind.isStored
  · obtain ⟨after, hAnswer, -⟩ := answer_store hServer hKind source session payload
    rw [← Message.send, hAnswer]
    exact ⟨rfl, .stored hKind⟩
  · refine satisfies_unhandled payload (by simpa [Tag.isAnswered] using hKind) ?_ source
    cases hHandler : handler? (.send kind) with
    | none => rfl
    | some handler => exact absurd (isStored_of_handler? hHandler) hKind

/-- A stored kind is sent or refused. -/
theorem answer_stored (h : relay.Healthy) (source : ρ) (session : SessionId) {kind : ArtifactKind}
    (hKind : kind.isStored) (payload : Bytes) :
    (relay.answer source (.envelope ⟨session, .request kind, payload⟩)).Satisfies
      (.envelope ⟨session, .request kind, payload⟩) := by
  obtain ⟨-, store, hServer, hStored⟩ := h
  refine satisfies_request payload (dispatch_fetch hServer hKind source session)
    (tag_fetchAnswer kind _) ?_
  cases hHeld : store.get? session kind with
  | none => exact Wire.arrives_bare session (.nack kind)
  | some held => exact hStored session kind held hHeld

/-- A farewell is not answered. -/
theorem answer_leave (h : relay.Healthy) (source : ρ) (session : SessionId) (role : Role)
    (payload : Bytes) :
    (relay.answer source (.envelope ⟨session, .disconnect role, payload⟩)).Satisfies
      (.envelope ⟨session, .disconnect role, payload⟩) := by
  obtain ⟨-, store, hServer, -⟩ := h
  have hDispatch := dispatch_disconnect hServer source session role
  have hSame : (⟨.disconnect role, payload⟩ : Message).tag = .disconnect role := rfl
  rw [← dispatch_leave hSame] at hDispatch
  simp only [answer, hDispatch]
  exact ⟨rfl, .passed rfl⟩

end Healthy

theorem answer_context (source : ρ) (session : SessionId) (payload : Bytes) :
    (relay.answer source (.envelope ⟨session, .request .cryptoContext, payload⟩)).Satisfies
      (.envelope ⟨session, .request .cryptoContext, payload⟩) := by
  refine satisfies_request payload (dispatch_context source session) (.inl rfl) ?_
  refine Wire.arrives_of_le session _ ?_
  have hLength := Scheme.length_encode_context relay.context
  rw [Wire.bodyLimit]
  omega

namespace Healthy

/-- The derived key or the notice that it is not there is sent, unless the key fits no frame. -/
theorem answer_derivation (h : relay.Healthy) (source : ρ) (session : SessionId)
    (payload : Bytes) :
    (relay.answer source (.envelope ⟨session, .request .reEncryptionKey, payload⟩)).Satisfies
        (.envelope ⟨session, .request .reEncryptionKey, payload⟩) ∨
      ∃ key after, relay.dispatch source session ⟨.request .reEncryptionKey, payload⟩ =
          ⟨.handled (some (.send .reEncryptionKey key)), relay, after⟩ ∧
        Wire.frame? ⟨session, .send .reEncryptionKey key⟩ = none := by
  obtain ⟨hContext, store, hServer, -⟩ := h
  obtain ⟨reply, after, hDispatch, ⟨parts, rfl⟩ | rfl⟩ :=
    dispatch_reEncryptionKey hContext hServer source session
  · by_cases hFits : Wire.Arrives ⟨session, .send .reEncryptionKey
        (Artifact.encode (relay.context.switchKey parts))⟩
    · exact .inl (satisfies_request payload hDispatch (.inl rfl) hFits)
    · exact .inr ⟨_, after, by rw [dispatch_request rfl, hDispatch],
        Wire.frame?_eq_none_iff.mpr hFits⟩
  · exact .inl (satisfies_request payload hDispatch (.inr rfl) (Wire.arrives_bare _ _))

/-- In a ring of moderate size every derived key fits a frame. -/
theorem not_overtaxes (h : relay.Healthy)
    (hSmall : relay.context.ringDimension.toNat ≤ 2 ^ 19) (source : ρ) (item : Wire.Item) :
    ¬relay.Overtaxes source item := by
  rintro ⟨⟨session, message⟩, key, -, hTag, hResponse, hFrame⟩
  obtain ⟨hContext, store, hServer, -⟩ := h
  obtain ⟨reply, after, hDispatch, hReply⟩ :=
    dispatch_reEncryptionKey hContext hServer source session
  simp only [dispatch_request hTag, hDispatch, Response.handled.injEq, Option.some.injEq]
    at hResponse
  subst hResponse
  rcases hReply with ⟨parts, hKey⟩ | hNack
  · have hRoom : relay.context.HasRoom := hSmall.trans (by decide)
    have hLength := (hContext.isValid hRoom).length_encode_switchKey parts
    refine Wire.frame?_eq_none_iff.mp hFrame ?_
    rw [hKey]
    refine Wire.arrives_of_le session _ ?_
    rw [Wire.bodyLimit]
    omega
  · cases hNack

/-- Whatever has arrived is answered, unless it asks for a key that fits no frame. -/
theorem answer_item (h : relay.Healthy) (source : ρ) {item : Wire.Item}
    (hItem : item ≠ .oversized) :
    (relay.answer source item).Satisfies item ∨
      (relay.answer source item).goesOn = false ∧ (relay.answer source item).replies = [] ∧
        relay.Overtaxes source item := by
  cases item with
  | oversized => exact absurd rfl hItem
  | malformed =>
      rw [answer_malformed]
      exact .inl ⟨rfl, .denied⟩
  | envelope envelope =>
      obtain ⟨session, tag, payload⟩ := envelope
      cases tag with
      | send kind => exact .inl (h.answer_send source session kind payload)
      | request kind =>
          by_cases hKind : kind.isStored
          · exact .inl (h.answer_stored source session hKind payload)
          · cases kind with
            | cryptoContext => exact .inl (answer_context source session payload)
            | reEncryptionKey =>
                refine (h.answer_derivation source session payload).imp_right ?_
                rintro ⟨key, after, hDispatch, hFrame⟩
                rw [answer_replied hDispatch, sendReply, hFrame]
                exact ⟨rfl, rfl, _, key, rfl, rfl, by rw [hDispatch], hFrame⟩
            | _ => exact absurd rfl hKind
      | disconnect role => exact .inl (h.answer_leave source session role payload)
      | _ => exact .inl (satisfies_unhandled payload rfl rfl source)

/-- No handler fails. -/
theorem response_ne_failed (h : relay.Healthy) (source : ρ) (envelope : Envelope)
    (failure : Failure RelayError) :
    (relay.dispatch source envelope.session envelope.message).response ≠ .failed failure := by
  intro hFailed
  have hItem : Wire.Item.envelope envelope ≠ .oversized := by simp
  rcases h.answer_item source hItem with ⟨hGoesOn, -⟩ | ⟨-, -, _, _, hSame, -, hHandled, -⟩
  · simp [Relay.answer, hFailed] at hGoesOn
  · cases hSame
    rw [hFailed] at hHandled
    cases hHandled

/-- Whatever body arrives, a healthy relay stays so. -/
theorem answer (h : relay.Healthy) (source : ρ) {body : Bytes}
    (hBody : body.length ≤ Wire.bodyLimit) :
    (relay.answer source (.ofBody body)).relay.Healthy := by
  cases hFound : Wire.ofBody? body with
  | none =>
      simp only [Wire.Item.ofBody, hFound, answer_malformed]
      exact h
  | some envelope =>
      simp only [Wire.Item.ofBody, hFound, relay_answer]
      exact h.dispatch source ⟨body, hBody, hFound⟩

end Healthy

end Relay

end CipherRelay
