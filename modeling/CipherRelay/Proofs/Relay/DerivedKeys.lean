import CipherRelay.Proofs.Artifact.RoundTrip
import CipherRelay.Proofs.Relay.Derivation
import CipherRelay.Proofs.Relay.Interleaving
import CipherRelay.Proofs.Scheme.Entries
import CipherRelay.Proofs.Scheme.Operands
/-!
Requests for a derived key. Clients may have stored any bytes in the two slots that the key is
derived from. The key is sent exactly if both slots hold well-formed keys, and its parts are those
of the two keys; otherwise the key is said not to be there. The request leaves the mailbox as it
was. However the messages of several clients are interleaved, both keys are those of one moment.
-/
namespace CipherRelay

namespace Scheme.Context

/-- Two slots with the payloads of a private and a public key whose vectors are well-formed. -/
structure Derivable (cc : Context) (first second : Option Bytes) (key : PrivateKey)
    (target : PublicKey) : Prop where
  decodes : first.bind Artifact.decode? = some key
  decodes' : second.bind Artifact.decode? = some target
  s : cc.Reduced key.s
  p0 : cc.Reduced target.p0
  p1 : cc.Reduced target.p1

/-- A key whose parts are, slot by slot modulo the plaintext modulus, the secret and the public key
masked with one vector. -/
def DerivedFrom (cc : Context) (key : PrivateKey) (target : PublicKey) (derived : SwitchKey) :
    Prop :=
  ∃ r, cc.Reduced r ∧ cc.Reduced derived.alpha ∧ cc.Reduced derived.beta ∧
    ∀ i < cc.ringDimension.toNat,
      entry derived.alpha i ≡ entry key.s i + entry r i * entry target.p0 i
        [MOD cc.plaintextModulus.toNat] ∧
      entry derived.beta i ≡ entry r i * entry target.p1 i [MOD cc.plaintextModulus.toNat]

namespace IsValid

variable {cc : Context}

/-- A vector that stands for slots is reduced. -/
theorem reduced_residues (h : cc.IsValid) (v : cc.Slots) : cc.Reduced (cc.residues v) :=
  passes_iff.mp (h.check_residues v)

/-- A key that is made from parts is one derived from these. -/
theorem derivedFrom_reKeyParts (h : cc.IsValid) (s : cc.Slots) (target : cc.Parts)
    (r : cc.Slots) :
    cc.DerivedFrom (cc.privateKey s) (cc.publicKey target)
      (cc.switchKey (reKeyParts s target r)) := by
  refine ⟨cc.residues r, h.reduced_residues r, h.reduced_residues _, h.reduced_residues _, ?_⟩
  intro i hi
  have hEntry : ∀ v : cc.Slots, (entry (cc.residues v) i : ZMod cc.plaintextModulus.toNat) =
      v ⟨i, hi⟩ := fun v => h.entry_residues v ⟨i, hi⟩
  constructor
  · rw [← ZMod.natCast_eq_natCast_iff, Nat.cast_add, Nat.cast_mul]
    simp only [privateKey, publicKey, switchKey, hEntry]
    rfl
  · rw [← ZMod.natCast_eq_natCast_iff, Nat.cast_mul]
    simp only [publicKey, switchKey, hEntry]
    rfl

end IsValid

end Scheme.Context

namespace Relay

open Scheme

variable {ρ : Type} [RandomSource ρ] {cc : Context} {store : Mailbox.Store}

/-- The answer to a request for a derived key, from the two slots of a session. -/
structure KeyAnswer (cc : Context) (store : Mailbox.Store) (session : SessionId)
    (response : Response) : Prop where
  sends : ∀ key target,
    cc.Derivable (store.get? session .privateKey) (store.get? session .publicKey) key target →
      ∃ payload derived, response = .handled (some (.send .reEncryptionKey payload)) ∧
        Artifact.decode? payload = some derived ∧ cc.DerivedFrom key target derived
  nacks : (¬∃ key target,
    cc.Derivable (store.get? session .privateKey) (store.get? session .publicKey) key target) →
      response = .handled (some (.bare (.nack .reEncryptionKey)))

/-- Well-formed keys have a derived key. -/
theorem derivation_of_derivable (h : cc.IsGenerated) {first second : Option Bytes}
    {key : PrivateKey} {target : PublicKey} (hKeys : cc.Derivable first second key target)
    (source : ρ) : ∃ derived after, Handler.derivation cc [first, second] source =
        .ok (some (.send .reEncryptionKey (Artifact.encode derived))) after ∧
      cc.DerivedFrom key target derived := by
  obtain ⟨hDecodes, hDecodes', hs, hp0, hp1⟩ := hKeys
  obtain ⟨first, rfl, hKey⟩ := Option.bind_eq_some_iff.mp hDecodes
  obtain ⟨second, rfl, hTarget⟩ := Option.bind_eq_some_iff.mp hDecodes'
  obtain ⟨secret⟩ := key
  obtain ⟨p0, p1⟩ := target
  -- The secret shows that there is room.
  have hValid := h.isValid hs.1.1
  obtain ⟨s, rfl⟩ := hValid.exists_of_check (Context.passes_iff.mpr hs)
  obtain ⟨a, rfl⟩ := hValid.exists_of_check (Context.passes_iff.mpr hp0)
  obtain ⟨b, rfl⟩ := hValid.exists_of_check (Context.passes_iff.mpr hp1)
  obtain ⟨r, after, hReKey⟩ := hValid.reKeyGen_eq_ok s (a, b) source
  have hFirst : Scheme.decode first = .ok (cc.privateKey s) := by
    simp only [Scheme.decode, hKey]
    rfl
  have hSecond : Scheme.decode second = .ok (cc.publicKey (a, b)) := by
    simp only [Scheme.decode, hTarget]
    rfl
  refine ⟨_, after, derivation_eq_ok ?_, hValid.derivedFrom_reKeyParts s (a, b) r⟩
  rw [Handler.derive, hFirst, Draw.lift_engine, pure_bind, hSecond, Draw.lift_engine, pure_bind,
    hReKey]

/-- Where one of the keys is not there or not well-formed, there is no derived key. -/
theorem derivation_of_not_derivable (h : cc.IsGenerated) {first second : Option Bytes}
    (hKeys : ¬∃ key target, cc.Derivable first second key target) (source : ρ) :
    Handler.derivation cc [first, second] source =
      .ok (some (.bare (.nack .reEncryptionKey))) source := by
  cases first with
  | none => rfl
  | some first =>
      cases second with
      | none => rfl
      | some second =>
          rcases derive_cases h first second source with
            ⟨s, parts, r, after, hRoom, hKey, hTarget, -⟩ | ⟨error, hDerive⟩
          · have hReduced := (h.isValid hRoom).reduced_residues
            exact absurd ⟨_, _, hKey, hTarget, hReduced s, hReduced parts.1, hReduced parts.2⟩ hKeys
          · exact derivation_eq_nack hDerive

/-- The handler asks for both slots at once and leaves the relay as it was, whatever comes with the
request. -/
theorem handle_derive {source after : ρ} {session : SessionId} {reply : Option Message}
    (hDerive : Handler.derivation cc
      [store.get? session .privateKey, store.get? session .publicKey] source = .ok reply after)
    (message : Message) :
    (⟨cc, .running store⟩ : Relay).handle .deriveReEncryptionKey source session message =
      ⟨.handled reply, ⟨cc, .running store⟩, after⟩ := by
  have hFinish : Handler.deriveReEncryptionKey.finish cc message
      (some (.fetchMany (.ok (store.fetchMany session [.privateKey, .publicKey])))) source =
        .ok reply after := hDerive
  simp only [handle, Handler.begin, pure, Except.pure, Mailbox.Server.execute, Mailbox.Server.serve,
    hFinish]

/-- Whatever the store holds, the handler answers from it and leaves it as it was. -/
theorem handle_answers (h : cc.IsGenerated) (store : Mailbox.Store) (source : ρ)
    (session : SessionId) (message : Message) :
    ∃ response after, (⟨cc, .running store⟩ : Relay).handle .deriveReEncryptionKey source session
        message = ⟨response, ⟨cc, .running store⟩, after⟩ ∧
      KeyAnswer cc store session response := by
  by_cases hKeys : ∃ key target, cc.Derivable (store.get? session .privateKey)
      (store.get? session .publicKey) key target
  · obtain ⟨key, target, hKeys⟩ := hKeys
    obtain ⟨derived, after, hDerive, hDerived⟩ := derivation_of_derivable h hKeys source
    refine ⟨_, after, handle_derive hDerive message, ?_, fun hNone => absurd ⟨_, _, hKeys⟩ hNone⟩
    intro other target' hOther
    obtain rfl : key = other := Option.some.inj (hKeys.decodes.symm.trans hOther.decodes)
    obtain rfl : target = target' := Option.some.inj (hKeys.decodes'.symm.trans hOther.decodes')
    exact ⟨_, derived, rfl, Artifact.decode?_encode derived, hDerived⟩
  · exact ⟨_, source, handle_derive (derivation_of_not_derivable h hKeys source) message,
      fun key target hSome => absurd ⟨key, target, hSome⟩ hKeys, fun _ => rfl⟩

/-- Whether a response is the answer from the store that the messages before the request have left,
in the order of the log. The request leaves it, too. -/
structure Snapshot (cc : Context) (log : List (Call ρ)) (call : Call ρ) (response : Response)
    (store : Mailbox.Store) : Prop where
  moment : ∃ k, log[k]? = some call ∧
    (⟨cc, .start⟩ : Relay).after (log.take k) = ⟨cc, .running store⟩ ∧
    (⟨cc, .start⟩ : Relay).after (log.take (k + 1)) = ⟨cc, .running store⟩
  answer : KeyAnswer cc store call.envelope.session response

/-- A message is dispatched by the handler of its tag. -/
theorem dispatch_eq_handle (relay : Relay) (source : ρ) (session : SessionId) {message : Message}
    {handler : Handler} (hHandler : handler? message.tag = some handler) :
    relay.dispatch source session message = relay.handle handler source session message := by
  rw [dispatch, hHandler]

/-- Among messages that are handled one after another, a request for a derived key is answered from
the slots as they are in that moment. -/
theorem exists_snapshot (h : cc.IsGenerated) {log : List (Call ρ)} {call : Call ρ}
    {response : Response} (hResponse : (call, response) ∈ (⟨cc, .start⟩ : Relay).responses log)
    (hTag : call.envelope.message.tag = .request .reEncryptionKey) :
    ∃ store, Snapshot cc log call response store := by
  obtain ⟨k, hAt⟩ := List.mem_iff_getElem?.mp hResponse
  obtain ⟨hCall, rfl⟩ := of_responses_getElem? hAt
  obtain ⟨store, hServer, -⟩ := slots_after cc (log.take k)
  have hRelay : (⟨cc, .start⟩ : Relay).after (log.take k) = ⟨cc, .running store⟩ :=
    congrArg₂ Relay.mk (context_after _ _) hServer
  have hHandler : handler? call.envelope.message.tag = some .deriveReEncryptionKey := by
    rw [hTag]
    rfl
  obtain ⟨response, after, hHandle, hAnswer⟩ :=
    handle_answers h store call.source call.envelope.session call.envelope.message
  rw [← dispatch_eq_handle _ _ _ hHandler] at hHandle
  refine ⟨store, ⟨k, hCall, hRelay, ?_⟩, ?_⟩
  · rw [List.take_add_one, hCall, after_append, hRelay]
    exact congrArg Handling.relay hHandle
  · rw [hRelay, hHandle]
    exact hAnswer

/-- A request for a derived key is answered from what the store holds, on every store. With several
clients at once it is answered from the store as it was in one moment. -/
theorem derived_keys {params : ContextParams} (hContext : Context.generate params = .ok cc) :
    (∀ (store : Mailbox.Store) (source : ρ) (session : SessionId) (message : Message),
      ∃ response after, (⟨cc, .running store⟩ : Relay).handle .deriveReEncryptionKey source session
          message = ⟨response, ⟨cc, .running store⟩, after⟩ ∧
        KeyAnswer cc store session response) ∧
    ∀ (count : Nat) (events : List (Traffic.Event ρ)) (traffic : Traffic ρ),
      (Traffic.start ⟨cc, .start⟩ count).follow? events = some traffic →
        ∀ line ∈ traffic.lines, ∀ call response, (call, response) ∈ line.responses →
          call.envelope.message.tag = .request .reEncryptionKey →
            ∃ store, Snapshot cc traffic.log call response store := by
  have h := Context.isGenerated_of_generate hContext
  constructor
  · intro store source session message
    exact handle_answers h store source session message
  · intro count events traffic hFollow line hLine call response hResponse hTag
    have hOrdered : traffic.Ordered ⟨cc, .start⟩ events :=
      Traffic.follow_induction hFollow (Traffic.ordered_start _ count) fun _ _ _ _ =>
        Traffic.Ordered.step
    obtain ⟨i, hLine⟩ := List.mem_iff_getElem?.mp hLine
    have hResponses := (hOrdered.lines i line hLine).responses
    apply exists_snapshot h _ hTag
    exact List.mem_of_mem_filter (hResponses ▸ List.mem_append_left _ hResponse)

/-- Two clients at once: the second one asks for the derived key while the first one replaces the
public key by something else, and once more afterwards. -/
def keyRequests : List (Traffic.Event Congruential) :=
  let session : SessionId := ⟨List.replicate 32 6, rfl⟩
  let secret : PrivateKey := ⟨[1, 2, 3, 4]⟩
  let target : PublicKey := ⟨[9, 8, 7, 6], [5, 4, 3, 2]⟩
  let first (message : Message) : Call Congruential := ⟨0, ⟨session, message⟩, ⟨1⟩⟩
  let second : Call Congruential := ⟨1, ⟨session, .request .reEncryptionKey⟩, ⟨2⟩⟩
  [.take (first (.send .privateKey (Artifact.encode secret))), .execute, .finish 0,
    .take (first (.send .publicKey (Artifact.encode target))), .execute, .finish 0,
    .take second, .take (first (.send .publicKey (Artifact.encode secret))), .execute, .execute,
    .finish 1, .finish 0, .take second, .execute, .finish 1]

/-- The first request is answered with a key, the second one that there is none. -/
theorem keyRequests_heard :
    ((Traffic.start ⟨⟨4, 10⟩, .start⟩ 2).follow? keyRequests).map (fun traffic =>
        traffic.lines.map fun line => line.responses.map fun (call, response) =>
          (call.envelope.message.tag, match response with
            | .handled (some reply) => some reply.tag
            | _ => none)) =
      some [[(.send .privateKey, some (.ack .privateKey)),
          (.send .publicKey, some (.ack .publicKey)), (.send .publicKey, some (.ack .publicKey))],
        [(.request .reEncryptionKey, some (.send .reEncryptionKey)),
          (.request .reEncryptionKey, some (.nack .reEncryptionKey))]] := by
  decide +kernel

theorem derived_keys_sample :
    Context.generate ⟨4, 10⟩ = .ok ⟨4, 10⟩ ∧
      (∃ response after, (⟨⟨4, 10⟩, .start⟩ : Relay).handle .deriveReEncryptionKey
          (⟨1⟩ : Congruential) .default (.request .reEncryptionKey) =
            ⟨response, ⟨⟨4, 10⟩, .start⟩, after⟩ ∧ KeyAnswer ⟨4, 10⟩ .empty .default response) ∧
      ∃ traffic, (Traffic.start ⟨⟨4, 10⟩, .start⟩ 2).follow? keyRequests = some traffic ∧
        ∀ line ∈ traffic.lines, ∀ call response, (call, response) ∈ line.responses →
          call.envelope.message.tag = .request .reEncryptionKey →
            ∃ store, Snapshot ⟨4, 10⟩ traffic.log call response store := by
  have hContext : Context.generate ⟨4, 10⟩ = .ok ⟨4, 10⟩ := by decide
  obtain ⟨traffic, hFollow, -⟩ := Option.map_eq_some_iff.mp keyRequests_heard
  obtain ⟨hStores, hRuns⟩ := derived_keys (ρ := Congruential) hContext
  exact ⟨hContext, hStores .empty ⟨1⟩ .default (.request .reEncryptionKey), traffic, hFollow,
    hRuns 2 keyRequests traffic hFollow⟩

end Relay

end CipherRelay
