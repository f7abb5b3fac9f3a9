import CipherRelay.Proofs.Relay.Dispatch
import CipherRelay.Relay.Traffic
import Mathlib.Data.List.Induction
/-!
Messages handled one after another. The order of the messages decides what is in the slots: a
request for an artifact is answered with what has been sent last, unless the artifact's owner has
taken leave since then.
-/
namespace CipherRelay.Relay

variable {ρ : Type} [RandomSource ρ]

/-- The relay after several messages, handled one after another. -/
def after (relay : Relay) (calls : List (Call ρ)) : Relay :=
  calls.foldl (fun relay call =>
    (relay.dispatch call.source call.envelope.session call.envelope.message).relay) relay

/-- What a relay responds to several messages, handled one after another. -/
def responses (relay : Relay) : List (Call ρ) → List (Call ρ × Response)
  | [] => []
  | call :: rest =>
      let handling := relay.dispatch call.source call.envelope.session call.envelope.message
      (call, handling.response) :: handling.relay.responses rest

/-- Calls are handled one after another. -/
theorem after_append (relay : Relay) (calls later : List (Call ρ)) :
    relay.after (calls ++ later) = (relay.after calls).after later :=
  List.foldl_append

/-- Later responses depend on earlier calls only through the relay. -/
theorem responses_append (relay : Relay) (calls later : List (Call ρ)) :
    relay.responses (calls ++ later) =
      relay.responses calls ++ (relay.after calls).responses later := by
  induction calls generalizing relay with
  | nil => rfl
  | cons call rest ih =>
      simp only [List.cons_append, responses, ih]
      rfl

/-- A message in a sequence is handled by the relay as the messages before have left it. -/
theorem responses_getElem? (relay : Relay) {calls : List (Call ρ)} {k : Nat} {call : Call ρ}
    (h : calls[k]? = some call) :
    (relay.responses calls)[k]? = some (call, ((relay.after (calls.take k)).dispatch call.source
      call.envelope.session call.envelope.message).response) := by
  induction calls generalizing relay k with
  | nil => cases h
  | cons first rest ih =>
      cases k with
      | zero =>
          cases h
          rfl
      | succ k => exact ih _ h

/-- Every response belongs to the message in its place. -/
theorem of_responses_getElem? {relay : Relay} {calls : List (Call ρ)} {k : Nat} {call : Call ρ}
    {response : Response} (h : (relay.responses calls)[k]? = some (call, response)) :
    calls[k]? = some call ∧ response = ((relay.after (calls.take k)).dispatch call.source
      call.envelope.session call.envelope.message).response := by
  induction calls generalizing relay k with
  | nil => cases h
  | cons first rest ih =>
      cases k with
      | zero =>
          cases h
          exact ⟨rfl, rfl⟩
      | succ k => exact ih h

theorem context_after (relay : Relay) (calls : List (Call ρ)) :
    (relay.after calls).context = relay.context := by
  induction calls generalizing relay with
  | nil => rfl
  | cons call rest ih => exact (ih _).trans (context_dispatch _ _ _)

/-- Whether a message sends an artifact in a session. -/
def Call.Sends (call : Call ρ) (session : SessionId) (kind : ArtifactKind) : Prop :=
  call.envelope.session = session ∧ call.envelope.message.tag = .send kind

/-- Whether a message is the leave of an artifact's owner in a session. -/
def Call.Leaves (call : Call ρ) (session : SessionId) (kind : ArtifactKind) : Prop :=
  call.envelope.session = session ∧
    ∃ role, call.envelope.message.tag = .disconnect role ∧ kind.owner? = some role

/-- Whether a payload has been sent last for an artifact in a session, and the artifact's owner has
not taken leave since then. -/
def LastSent (calls : List (Call ρ)) (session : SessionId) (kind : ArtifactKind)
    (payload : Bytes) : Prop :=
  ∃ before call later, calls = before ++ call :: later ∧ call.Sends session kind ∧
    call.envelope.message.payload = payload ∧
    ∀ other ∈ later, ¬other.Sends session kind ∧ ¬other.Leaves session kind

omit [RandomSource ρ] in
theorem not_lastSent_nil {session : SessionId} {kind : ArtifactKind} {payload : Bytes} :
    ¬LastSent ([] : List (Call ρ)) session kind payload := by
  rintro ⟨before, call, later, hCalls, -⟩
  simp at hCalls

omit [RandomSource ρ] in
/-- The last artifact of a kind is the one just sent, or an earlier one that nothing has cleared
since. -/
theorem lastSent_append_iff {calls : List (Call ρ)} {call : Call ρ} {session : SessionId}
    {kind : ArtifactKind} {payload : Bytes} :
    LastSent (calls ++ [call]) session kind payload ↔
      call.Sends session kind ∧ call.envelope.message.payload = payload ∨
        ¬call.Sends session kind ∧ ¬call.Leaves session kind ∧
          LastSent calls session kind payload := by
  constructor
  · rintro ⟨before, sent, later, hCalls, hSends, hPayload, hLater⟩
    rcases List.eq_nil_or_concat later with rfl | ⟨rest, last, rfl⟩
    · obtain ⟨-, hLast⟩ := List.append_inj' hCalls rfl
      obtain rfl := (List.cons.inj hLast).1
      exact .inl ⟨hSends, hPayload⟩
    · rw [List.concat_eq_append, ← List.cons_append, ← List.append_assoc] at hCalls
      obtain ⟨rfl, hLast⟩ := List.append_inj' hCalls rfl
      obtain rfl := (List.cons.inj hLast).1
      simp only [List.concat_eq_append, List.mem_append, List.mem_singleton] at hLater
      obtain ⟨hNotSends, hNotLeaves⟩ := hLater call (.inr rfl)
      exact .inr ⟨hNotSends, hNotLeaves, before, sent, rest, rfl, hSends, hPayload,
        fun other hMem => hLater other (.inl hMem)⟩
  · rintro (⟨hSends, hPayload⟩ | ⟨hNotSends, hNotLeaves, before, sent, later, rfl, hSends,
      hPayload, hLater⟩)
    · exact ⟨calls, call, [], rfl, hSends, hPayload, fun _ hMem => (List.not_mem_nil hMem).elim⟩
    · refine ⟨before, sent, later ++ [call], by simp, hSends, hPayload, fun other hMem => ?_⟩
      rcases List.mem_append.mp hMem with hBefore | hLast
      · exact hLater other hBefore
      · rw [List.mem_singleton.mp hLast]
        exact ⟨hNotSends, hNotLeaves⟩

omit [RandomSource ρ] in
/-- A call sends a stored kind exactly when its message brings one in. -/
theorem Call.sends_iff {call : Call ρ} {session : SessionId} {kind : ArtifactKind}
    (hKind : kind.isStored) : call.Sends session kind ↔
      call.envelope.session = session ∧ call.envelope.message.tag.deposit? = some kind := by
  rw [Call.Sends, Tag.deposit?_eq_some, and_iff_left hKind]

omit [RandomSource ρ] in
theorem Call.leaves_iff {call : Call ρ} {session : SessionId} {kind : ArtifactKind} :
    call.Leaves session kind ↔
      call.envelope.session = session ∧ call.envelope.message.tag.clears kind := by
  rw [Call.Leaves]
  apply and_congr_right
  intro _
  cases call.envelope.message.tag <;> simp [Tag.clears]

/-- A mailbox that was empty at first holds what has been sent last. -/
theorem slots_after (cc : Scheme.Context) (calls : List (Call ρ)) :
    ∃ store, ((⟨cc, .start⟩ : Relay).after calls).server = .running store ∧
      ∀ session kind payload, kind.isStored →
        (store.get? session kind = some payload ↔ LastSent calls session kind payload) := by
  -- By induction on the messages, the last one split off.
  induction calls using List.reverseRecOn with
  | nil =>
      refine ⟨.empty, rfl, fun session kind payload _ => ?_⟩
      simp [not_lastSent_nil, Mailbox.Store.empty, Mailbox.Store.get?]
  | append_singleton calls call ih =>
      obtain ⟨store, hServer, hSlots⟩ := ih
      obtain ⟨later, hRelay, hLater⟩ := dispatch_slots hServer call.source call.envelope.session
        call.envelope.message
      refine ⟨later, ?_, fun session kind payload hKind => ?_⟩
      · rw [after_append]
        exact congrArg Relay.server hRelay
      · rw [lastSent_append_iff, call.sends_iff hKind, call.leaves_iff, hLater]
        by_cases hSession : call.envelope.session = session
        · simp only [hSession, if_true, Message.update, true_and]
          split
          · simp [*]
          · split <;> simp [*]
        · simp [hSession, hSlots session kind payload hKind]

/-- A request for an artifact is answered with what has been sent last. -/
theorem request_after (cc : Scheme.Context) (calls : List (Call ρ)) (session : SessionId)
    {message : Message} {kind : ArtifactKind} (hKind : kind.isStored)
    (hTag : message.tag = .request kind) (source : ρ) :
    (∀ payload, LastSent calls session kind payload →
      (((⟨cc, .start⟩ : Relay).after calls).dispatch source session message).response =
        .handled (some (.send kind payload))) ∧
    ((∀ payload, ¬LastSent calls session kind payload) →
      (((⟨cc, .start⟩ : Relay).after calls).dispatch source session message).response =
        .handled (some (.bare (.nack kind)))) := by
  obtain ⟨store, hServer, hSlots⟩ := slots_after cc calls
  rw [dispatch_request hTag, dispatch_fetch hServer hKind]
  constructor
  · intro payload hSent
    rw [(hSlots session kind payload hKind).mpr hSent]
    rfl
  · intro hNone
    have hEmpty : store.get? session kind = none :=
      Option.eq_none_iff_forall_ne_some.mpr fun payload hSome =>
        hNone payload ((hSlots session kind payload hKind).mp hSome)
    rw [hEmpty]
    rfl

/-- When an artifact is acknowledged, its slot holds the whole payload. -/
theorem send_after (cc : Scheme.Context) (calls : List (Call ρ)) {call : Call ρ}
    {kind : ArtifactKind} (hKind : kind.isStored)
    (hTag : call.envelope.message.tag = .send kind) :
    (((⟨cc, .start⟩ : Relay).after calls).dispatch call.source call.envelope.session
        call.envelope.message).response = .handled (some (.bare (.ack kind))) ∧
      ((⟨cc, .start⟩ : Relay).after (calls ++ [call])).server.get? call.envelope.session kind =
        some call.envelope.message.payload := by
  obtain ⟨store, hServer, -⟩ := slots_after cc calls
  obtain ⟨line, ⟨session, tag, payload⟩, source⟩ := call
  obtain rfl : tag = .send kind := hTag
  obtain ⟨later, hDispatch, hLater⟩ := dispatch_store hServer hKind source session payload
  constructor
  · exact congrArg Handling.response hDispatch
  · have hRelay : (⟨cc, .start⟩ : Relay).after
        (calls ++ [⟨line, ⟨session, .send kind, payload⟩, source⟩]) =
          { (⟨cc, .start⟩ : Relay).after calls with server := .running later } := by
      rw [after_append]
      exact congrArg Handling.relay hDispatch
    rw [hRelay, Mailbox.Server.get?, hLater, if_pos ⟨rfl, rfl⟩]

end CipherRelay.Relay
