import CipherRelay.Relay.Basic
/-!
What the relay does with each kind of message while its mailbox is running: storing acknowledges and
fills one slot, asking answers from the slot and leaves all of them, and taking leave clears what
the role owns. Whatever is sent, the relay keeps its context and its mailbox runs on, and only the
slots of the message's own session can change.
-/
namespace CipherRelay

/-- Whether a message with this tag can change what the mailbox holds. -/
def Tag.writes : Tag → Bool
  | .send _ | .disconnect _ => true
  | _ => false

/-- The artifact that a message with this tag puts in its slot. -/
def Tag.deposit? : Tag → Option ArtifactKind
  | .send kind => if kind.isStored then some kind else none
  | _ => none

/-- Whether a message with this tag clears the slot of a kind. -/
def Tag.clears (tag : Tag) (kind : ArtifactKind) : Bool :=
  match tag with
  | .disconnect role => kind.owner? = some role
  | _ => false

/-- The slots that the relay looks at, fills or clears for a message with this tag. -/
def Tag.slots : Tag → List ArtifactKind
  | .send kind => [kind]
  | .request .reEncryptionKey => [.privateKey, .publicKey]
  | .request kind => [kind]
  | .disconnect role => ArtifactKind.stored.filter fun kind => kind.owner? = some role
  | .serverAccept | .ack _ | .nack _ | .deny => []

/-- A message brings an artifact in exactly when it sends one of a kind that is stored. -/
theorem Tag.deposit?_eq_some {tag : Tag} {kind : ArtifactKind} :
    tag.deposit? = some kind ↔ tag = .send kind ∧ kind.isStored := by
  cases tag with
  | send other =>
      simp only [deposit?, Option.ite_none_right_eq_some, Option.some.injEq, Tag.send.injEq]
      exact ⟨fun ⟨hStored, hSame⟩ => ⟨hSame, hSame ▸ hStored⟩,
        fun ⟨hSame, hStored⟩ => ⟨hSame ▸ hStored, hSame⟩⟩
  | _ => simp [deposit?]

theorem Tag.mem_slots_of_deposit? {tag : Tag} {kind : ArtifactKind} (h : tag.deposit? = some kind) :
    kind ∈ tag.slots := by
  rw [(deposit?_eq_some.mp h).1, slots]
  exact List.mem_singleton_self kind

theorem Tag.slots_request {kind : ArtifactKind} (h : kind.isStored) :
    (Tag.request kind).slots = [kind] := by
  cases kind <;> first | rfl | cases h

/-- Whatever leaves the mailbox as it is brings nothing in. -/
theorem Tag.deposit?_of_writes {tag : Tag} (h : tag.writes = false) : tag.deposit? = none := by
  cases tag with
  | send | disconnect => cases h
  | _ => rfl

theorem Tag.clears_of_writes {tag : Tag} (h : tag.writes = false) (kind : ArtifactKind) :
    tag.clears kind = false := by
  cases tag with
  | send | disconnect => cases h
  | _ => rfl

/-- What a slot of its session holds once a message has been handled. -/
def Message.update (message : Message) (kind : ArtifactKind) (held : Option Bytes) :
    Option Bytes :=
  if message.tag.deposit? = some kind then some message.payload
  else if message.tag.clears kind then none
  else held

namespace Relay

open Mailbox

theorem handler?_send {kind : ArtifactKind} (h : kind.isStored) :
    handler? (.send kind) = some .storeArtifact := by
  cases kind with
  | cryptoContext | reEncryptionKey => cases h
  | partialLead operation | partialMain operation => cases operation <;> rfl
  | _ => rfl

theorem handler?_request {kind : ArtifactKind} (h : kind.isStored) :
    handler? (.request kind) = some .fetchArtifact := by
  cases kind with
  | cryptoContext | reEncryptionKey => cases h
  | partialLead operation | partialMain operation => cases operation <;> rfl
  | _ => rfl

theorem handler?_disconnect (role : Role) : handler? (.disconnect role) = some .clearRole := by
  cases role <;> rfl

variable {ρ : Type} [RandomSource ρ] {relay : Relay} {store : Store}

/-- A message that needs the mailbox has a handler, and the handler has begun with that request. -/
theorem opening_eq_asks {cc : Scheme.Context} {session : SessionId} {message : Message}
    {handler : Handler} {request : Request}
    (h : opening cc session message = .asks handler request) :
    handler? message.tag = some handler ∧
      handler.begin cc session message = .ok (.ask request) := by
  unfold opening at h
  split at h
  · cases h
  · split at h <;> cases h
    exact ⟨by assumption, by assumption⟩

/-- A message that is settled at once does not reach the mailbox. -/
theorem dispatch_of_settled {session : SessionId} {message : Message} {response : Response}
    (h : opening relay.context session message = .settled response) (source : ρ) :
    relay.dispatch source session message = ⟨response, relay, source⟩ := by
  unfold opening at h
  unfold dispatch
  split at h
  · cases h
    simp only [*]
  · simp only [*, handle]
    split at h <;> cases h <;> simp only [*]

/-- Any other message is answered from what the mailbox says to its one request. -/
theorem dispatch_of_asks {session : SessionId} {message : Message} {handler : Handler}
    {request : Request} (h : opening relay.context session message = .asks handler request)
    (source : ρ) :
    (relay.dispatch source session message).response =
        conclusion relay.context handler message (relay.server.execute request).1 source ∧
      (relay.dispatch source session message).relay =
        { relay with server := (relay.server.execute request).2 } := by
  obtain ⟨hHandler, hBegin⟩ := opening_eq_asks h
  simp only [dispatch, hHandler, handle, hBegin, conclusion]
  cases handler.finish relay.context message (relay.server.execute request).1 source <;>
    exact ⟨rfl, rfl⟩

/-- No message changes the context that the relay serves. -/
theorem context_dispatch (source : ρ) (session : SessionId) (message : Message) :
    (relay.dispatch source session message).relay.context = relay.context := by
  cases hOpening : opening relay.context session message with
  | settled response => rw [dispatch_of_settled hOpening]
  | asks handler request => rw [(dispatch_of_asks hOpening source).2]

/-- A message whose handler asks the mailbox is answered from the mailbox's answer. -/
theorem dispatch_ask {handler : Handler} {session : SessionId} {message : Message}
    {request : Request} {answer : Option Mailbox.Reply} {server : Server} {source after : ρ}
    {reply : Option Message} (hHandler : handler? message.tag = some handler)
    (hBegin : handler.begin relay.context session message = .ok (.ask request))
    (hExecute : relay.server.execute request = (answer, server))
    (hFinish : handler.finish relay.context message answer source = .ok reply after) :
    relay.dispatch source session message = ⟨.handled reply, { relay with server }, after⟩ := by
  simp only [dispatch, hHandler, handle, hBegin, hExecute, hFinish]

/-- A stored kind is acknowledged, and its slot holds the payload from then on. -/
theorem dispatch_store (hServer : relay.server = .running store) {kind : ArtifactKind}
    (hKind : kind.isStored) (source : ρ) (session : SessionId) (payload : Bytes) :
    ∃ after, relay.dispatch source session (.send kind payload) =
        ⟨.handled (some (.bare (.ack kind))), { relay with server := .running after }, source⟩ ∧
      ∀ s k, after.get? s k =
        if session = s ∧ kind = k then some payload else store.get? s k := by
  have hPut : ∃ after, store.put session kind payload = .ok after := by
    simp [Store.put, hKind]
  obtain ⟨after, hPut⟩ := hPut
  refine ⟨after, ?_, Store.get?_put hPut⟩
  have hExecute : relay.server.execute (.store session kind payload) =
      (some (.store (.ok ())), .running after) := by
    simp only [hServer, Server.execute, Server.serve, hPut]
  exact dispatch_ask (handler?_send hKind) rfl hExecute rfl

/-- The answer to a request for a slot with this content. -/
def fetchAnswer (kind : ArtifactKind) : Option Bytes → Message
  | some payload => .send kind payload
  | none => .bare (.nack kind)

theorem tag_fetchAnswer (kind : ArtifactKind) (held : Option Bytes) :
    (fetchAnswer kind held).tag = .send kind ∨ (fetchAnswer kind held).tag = .nack kind := by
  cases held with
  | none => exact .inr rfl
  | some payload => exact .inl rfl

/-- A request for a stored kind is answered with what its slot holds, and changes nothing. -/
theorem dispatch_fetch (hServer : relay.server = .running store) {kind : ArtifactKind}
    (hKind : kind.isStored) (source : ρ) (session : SessionId) :
    relay.dispatch source session (.request kind) =
      ⟨.handled (some (fetchAnswer kind (store.get? session kind))), relay, source⟩ := by
  have hExecute : relay.server.execute (.fetch session kind) =
      (some (.fetch (store.fetch session kind)), .running store) := by
    simp only [hServer, Server.execute, Server.serve]
  have hFinish : Handler.fetchArtifact.finish relay.context (.request kind)
      (some (.fetch (store.fetch session kind))) source =
        .ok (some (fetchAnswer kind (store.get? session kind))) source := by
    simp only [Handler.finish, Message.request, Message.bare, Tag.artifact?, Client.fetched,
      Store.fetch]
    cases store.get? session kind <;> rfl
  rw [dispatch_ask (handler?_request hKind) rfl hExecute hFinish, ← hServer]

/-- The context is served whether a mailbox runs or not. -/
theorem dispatch_context (source : ρ) (session : SessionId) :
    relay.dispatch source session (.request .cryptoContext) =
      ⟨.handled (some (.send .cryptoContext (Artifact.encode relay.context))), relay, source⟩ :=
  rfl

/-- A key is derived from the two slots as they are in one moment. -/
theorem dispatch_derive (hServer : relay.server = .running store) {source after : ρ}
    {session : SessionId} {reply : Option Message}
    (hDerive : Handler.derivation relay.context
      [store.get? session .privateKey, store.get? session .publicKey] source = .ok reply after) :
    relay.dispatch source session (.request .reEncryptionKey) =
      ⟨.handled reply, relay, after⟩ := by
  have hHandler : handler? (Message.request .reEncryptionKey).tag =
      some .deriveReEncryptionKey := rfl
  have hExecute : relay.server.execute (.fetchMany session [.privateKey, .publicKey]) =
      (some (.fetchMany (.ok (store.fetchMany session [.privateKey, .publicKey]))),
        .running store) := by
    simp only [hServer, Server.execute, Server.serve]
  rw [dispatch_ask hHandler rfl hExecute hDerive, ← hServer]

/-- Where a key is missing, the derived key counts as not yet there. -/
theorem dispatch_underivable (hServer : relay.server = .running store) (source : ρ)
    {session : SessionId} (hMissing : store.get? session .privateKey = none ∨
      store.get? session .publicKey = none) :
    relay.dispatch source session (.request .reEncryptionKey) =
      ⟨.handled (some (.bare (.nack .reEncryptionKey))), relay, source⟩ := by
  refine dispatch_derive hServer ?_
  rcases hMissing with hNone | hNone
  · rw [hNone]
    rfl
  · rw [hNone]
    cases store.get? session .privateKey <;> rfl

/-- A derived key is sent as it is. -/
theorem derivation_eq_ok {cc : Scheme.Context} {first second : Bytes} {source after : ρ}
    {key : Scheme.SwitchKey} (h : Handler.derive cc first second source = .ok key after) :
    Handler.derivation cc [some first, some second] source =
      .ok (some (.send .reEncryptionKey (Artifact.encode key))) after := by
  unfold Handler.derivation
  dsimp only
  rw [h]

/-- Where both keys are there, the answer carries the key derived from them. -/
theorem dispatch_derived (hServer : relay.server = .running store) {source after : ρ}
    {session : SessionId} {first second : Bytes} {key : Scheme.SwitchKey}
    (hFirst : store.get? session .privateKey = some first)
    (hSecond : store.get? session .publicKey = some second)
    (hDerive : Handler.derive relay.context first second source = .ok key after) :
    relay.dispatch source session (.request .reEncryptionKey) =
      ⟨.handled (some (.send .reEncryptionKey (Artifact.encode key))), relay, after⟩ := by
  refine dispatch_derive hServer ?_
  simp only [hFirst, hSecond]
  exact derivation_eq_ok hDerive

/-- Taking leave is not answered and clears what the role owns. -/
theorem dispatch_disconnect (hServer : relay.server = .running store) (source : ρ)
    (session : SessionId) (role : Role) :
    relay.dispatch source session (.disconnect role) =
      ⟨.handled none, { relay with server := .running (store.clear session role) }, source⟩ :=
  dispatch_ask (handler?_disconnect role) rfl
    (by simp only [hServer, Server.execute, Server.serve]; rfl) rfl

/-- What comes with a leave does not matter. -/
theorem dispatch_leave {role : Role} {message : Message} (h : message.tag = .disconnect role)
    (source : ρ) (session : SessionId) :
    relay.dispatch source session message = relay.dispatch source session (.disconnect role) := by
  obtain ⟨tag, payload⟩ := message
  obtain rfl : tag = .disconnect role := h
  simp only [dispatch, Message.disconnect, Message.bare, handler?_disconnect]
  rfl

theorem handler?_request_eq {kind : ArtifactKind} {handler : Handler}
    (h : handler? (.request kind) = some handler) :
    handler = .fetchArtifact ∨ handler = .serveContext ∨ handler = .deriveReEncryptionKey := by
  by_cases hKind : kind.isStored
  · rw [handler?_request hKind] at h
    exact .inl (Option.some.inj h).symm
  · cases kind with
    | cryptoContext => exact .inr (.inl (Option.some.inj h).symm)
    | reEncryptionKey => exact .inr (.inr (Option.some.inj h).symm)
    | _ => exact absurd rfl hKind

/-- What comes with a request does not matter. -/
theorem dispatch_request {kind : ArtifactKind} {message : Message}
    (h : message.tag = .request kind) (source : ρ) (session : SessionId) :
    relay.dispatch source session message = relay.dispatch source session (.request kind) := by
  obtain ⟨tag, payload⟩ := message
  obtain rfl : tag = .request kind := h
  cases hHandler : handler? (.request kind) with
  | none => simp only [dispatch, Message.request, Message.bare, hHandler]
  | some handler =>
      simp only [dispatch, Message.request, Message.bare, hHandler]
      rcases handler?_request_eq hHandler with rfl | rfl | rfl <;> rfl

theorem isStored_of_handler? {kind : ArtifactKind} {handler : Handler}
    (h : handler? (.send kind) = some handler) : kind.isStored := by
  by_cases hKind : kind.isStored
  · exact hKind
  · cases kind with
    | cryptoContext | reEncryptionKey => cases h
    | _ => exact absurd rfl hKind

/-- Only requests, artifacts and farewells have a handler. -/
theorem handler?_answer {tag : Tag} {handler : Handler} (h : handler? tag = some handler) :
    (∃ kind, tag = .request kind) ∨ (∃ kind, tag = .send kind) ∨
      ∃ role, tag = .disconnect role := by
  unfold handler? at h
  obtain ⟨entry, hFind, -⟩ := Option.map_eq_some_iff.mp h
  have hMem := List.mem_of_find?_eq_some hFind
  have hTag := List.find?_some hFind
  simp only [decide_eq_true_eq] at hTag
  subst hTag
  simp only [dispatchTable, List.mem_append, List.mem_flatMap, List.mem_map, List.mem_cons,
    List.not_mem_nil, or_false] at hMem
  rcases hMem with (⟨kind, -, rfl | rfl⟩ | rfl | rfl) | ⟨role, -, rfl⟩
  · exact .inr (.inl ⟨kind, rfl⟩)
  · exact .inl ⟨kind, rfl⟩
  · exact .inl ⟨_, rfl⟩
  · exact .inl ⟨_, rfl⟩
  · exact .inr (.inr ⟨role, rfl⟩)

/-- Tags of replies and of what cannot be stored call for no handler. -/
theorem handler?_eq_none {tag : Tag} (hSends : tag.deposit? = none)
    (hRequests : ∀ kind, tag ≠ .request kind) (hStays : ∀ role, tag ≠ .disconnect role) :
    handler? tag = none := by
  cases hHandler : handler? tag with
  | none => rfl
  | some handler =>
      rcases handler?_answer hHandler with ⟨kind, rfl⟩ | ⟨kind, rfl⟩ | ⟨role, rfl⟩
      · exact absurd rfl (hRequests kind)
      · rw [Tag.deposit?_eq_some.mpr ⟨rfl, isStored_of_handler? hHandler⟩] at hSends
        cases hSends
      · exact absurd rfl (hStays role)

/-- A message that neither stores nor clears anything leaves a relay as it was. -/
theorem dispatch_reading (source : ρ) (session : SessionId) {message : Message}
    (hDeposit : message.tag.deposit? = none) (hStays : ∀ role, message.tag ≠ .disconnect role) :
    (relay.dispatch source session message).relay = relay := by
  cases hOpening : opening relay.context session message with
  | settled response => rw [dispatch_of_settled hOpening]
  | asks handler request =>
      obtain ⟨hHandler, hBegin⟩ := opening_eq_asks hOpening
      rw [(dispatch_of_asks hOpening source).2]
      have hSame : (relay.server.execute request).2 = relay.server := by
        obtain ⟨tag, payload⟩ := message
        rcases handler?_answer hHandler with ⟨kind, rfl⟩ | ⟨kind, rfl⟩ | ⟨role, rfl⟩
        · rcases handler?_request_eq hHandler with rfl | rfl | rfl <;> cases hBegin <;>
            cases relay.server <;> rfl
        · have hStored := Tag.deposit?_eq_some.mpr ⟨rfl, isStored_of_handler? hHandler⟩
          rw [hStored] at hDeposit
          cases hDeposit
        · exact absurd rfl (hStays role)
      rw [hSame]

/-- What a message does to a relay: it fills or clears slots of its own session. -/
theorem dispatch_slots (hServer : relay.server = .running store) (source : ρ)
    (session : SessionId) (message : Message) :
    ∃ after, (relay.dispatch source session message).relay =
        { relay with server := .running after } ∧
      ∀ s kind, after.get? s kind =
        if session = s then message.update kind (store.get? s kind) else store.get? s kind := by
  obtain ⟨tag, payload⟩ := message
  cases hDeposit : tag.deposit? with
  | some stored =>
      obtain ⟨rfl, hStored⟩ := Tag.deposit?_eq_some.mp hDeposit
      obtain ⟨after, hDispatch, hPut⟩ := dispatch_store hServer hStored source session payload
      refine ⟨after, by rw [← Message.send, hDispatch], fun s kind => ?_⟩
      simp only [hPut, Message.update, hDeposit, Tag.clears, Option.some.injEq]
      by_cases hSession : session = s <;> simp [hSession]
  | none =>
      by_cases hLeaves : ∃ role, tag = .disconnect role
      · obtain ⟨role, rfl⟩ := hLeaves
        have hOpening : opening relay.context session ⟨.disconnect role, payload⟩ =
            .asks .clearRole (.clearRole session role) := by
          simp only [opening, handler?_disconnect, Handler.begin]
          rfl
        refine ⟨store.clear session role, ?_, fun s kind => ?_⟩
        · rw [(dispatch_of_asks hOpening source).2, hServer]
          rfl
        · simp only [Store.get?_clear, Message.update, hDeposit, Tag.clears]
          by_cases hSession : session = s <;> simp [hSession]
      · have hStays : ∀ role, tag ≠ .disconnect role := fun role hTag => hLeaves ⟨role, hTag⟩
        have hClears : ∀ kind, tag.clears kind = false := by
          intro kind
          cases tag with
          | disconnect role => exact absurd rfl (hStays role)
          | _ => rfl
        refine ⟨store, ?_, fun s kind => ?_⟩
        · rw [dispatch_reading source session hDeposit hStays, ← hServer]
        · simp [Message.update, hDeposit, hClears]

/-- Whatever is sent, the context stays and the mailbox runs on, and the slots of a session stay as
they were unless the message writes in it. -/
theorem dispatch_outside (hServer : relay.server = .running store) (source : ρ)
    (session : SessionId) (message : Message) :
    (relay.dispatch source session message).relay.context = relay.context ∧
      ∃ after, (relay.dispatch source session message).relay.server = .running after ∧
        ∀ s, s ≠ session ∨ message.tag.writes = false →
          ∀ k, after.get? s k = store.get? s k := by
  obtain ⟨after, hRelay, hSlots⟩ := dispatch_slots hServer source session message
  rw [hRelay]
  refine ⟨rfl, after, rfl, fun s hSame k => ?_⟩
  rw [hSlots]
  rcases hSame with hElsewhere | hReads
  · rw [if_neg hElsewhere.symm]
  · simp [Message.update, Tag.deposit?_of_writes hReads, Tag.clears_of_writes hReads]

end Relay

end CipherRelay
