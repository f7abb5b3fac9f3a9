import CipherRelay.Proofs.Relay.Replies
/-!
The relay and what arrives in frames. Complete frames are answered one by one and in order, whatever
is in them. The service ends early in one case only: where a derived key is so large that it fits no
frame. What the relay does not handle leaves no trace but the denials.
-/
namespace CipherRelay.Relay

variable {ρ : Type} [RandomSource ρ] {relay : Relay}

/-- Whatever arrives in frames leaves a relay healthy. -/
theorem Healthy.serve (h : relay.Healthy) (source : ρ) {bodies : List Bytes}
    (hBodies : ∀ body ∈ bodies, body.length ≤ Wire.bodyLimit) :
    (relay.serve source (bodies.map .ofBody)).relay.Healthy := by
  induction bodies generalizing relay source with
  | nil => exact h
  | cons body rest ih =>
      obtain ⟨hBody, hRest⟩ := List.forall_mem_cons.mp hBodies
      have hFirst := h.answer source hBody
      simp only [List.map_cons, Relay.serve]
      split
      · exact ih hFirst _ hRest
      · exact hFirst

theorem context_serve (source : ρ) (items : List Wire.Item) :
    (relay.serve source items).relay.context = relay.context := by
  induction items generalizing relay source with
  | nil => rfl
  | cons item rest ih =>
      have hFirst : (relay.answer source item).relay.context = relay.context := by
        cases item with
        | oversized => rfl
        | malformed => rw [answer_malformed]
        | envelope envelope => rw [relay_answer, context_dispatch]
      simp only [serve]
      split
      · exact (ih _).trans hFirst
      · exact hFirst

/-- Frames are answered one by one and in order, up to one that asks for a key that fits no
frame. -/
theorem Healthy.serve_frames (h : relay.Healthy) (source : ρ) {bodies : List Bytes}
    (hBodies : ∀ body ∈ bodies, body.length ≤ Wire.bodyLimit) :
    ∃ served unserved answers, bodies = served ++ unserved ∧
      List.Forall₂ AnsweredBy (served.map .ofBody) answers ∧
      (relay.serve source (bodies.map .ofBody)).replies = answers.flatten ∧
      (unserved = [] ∧ (relay.serve source (bodies.map .ofBody)).goesOn = true ∨
        ∃ body rest, unserved = body :: rest ∧
          (relay.serve source (bodies.map .ofBody)).goesOn = false ∧
          (relay.serve source (served.map .ofBody)).relay.Overtaxes
            (relay.serve source (served.map .ofBody)).source (.ofBody body)) := by
  -- By induction on the frames; each leaves a healthy relay to the next.
  induction bodies generalizing relay source with
  | nil => exact ⟨[], [], [], rfl, .nil, rfl, .inl ⟨rfl, rfl⟩⟩
  | cons body rest ih =>
      obtain ⟨hBody, hRest⟩ := List.forall_mem_cons.mp hBodies
      rcases h.answer_item source (Wire.Item.ofBody_ne_oversized body) with
        ⟨hGoesOn, hAnswered⟩ | ⟨hStops, hSilent, hOvertaxes⟩
      · obtain ⟨served, unserved, answers, hSplit, hAnswers, hReplies, hEnd⟩ :=
          ih (h.answer source hBody) (relay.answer source (.ofBody body)).source hRest
        refine ⟨body :: served, unserved, _ :: answers, by rw [hSplit]; rfl,
          .cons hAnswered hAnswers, ?_, ?_⟩
        · simp only [List.map_cons, Relay.serve, hGoesOn, if_true, hReplies, List.flatten_cons]
        · simpa only [List.map_cons, Relay.serve, hGoesOn, if_true] using hEnd
      · refine ⟨[], body :: rest, [], rfl, .nil, ?_, .inr ⟨body, rest, rfl, ?_, hOvertaxes⟩⟩
        · simp only [List.map_cons, Relay.serve, hStops, Bool.false_eq_true, if_false, hSilent,
            List.flatten_nil]
        · simp only [List.map_cons, Relay.serve, hStops, Bool.false_eq_true, if_false]

/-- Whether the relay does not handle what has arrived. -/
def isNoise : Wire.Item → Bool
  | .envelope envelope => (handler? envelope.message.tag).isNone
  | .malformed => true
  | .oversized => false

/-- What the relay does not handle leaves no trace but a denial. -/
theorem answer_noise (relay : Relay) (source : ρ) {item : Wire.Item} (h : isNoise item) :
    ∃ replies, relay.answer source item = ⟨replies, true, relay, source⟩ ∧
      replies.filter (· ≠ denial) = [] := by
  cases item with
  | oversized => cases h
  | malformed => exact ⟨[denial], answer_malformed source, by simp⟩
  | envelope envelope =>
      exact ⟨[], answer_unhandled (Option.isNone_iff_eq_none.mp h) source, rfl⟩

/-- What the relay handles is not denied. -/
theorem AnsweredBy.filter {item : Wire.Item} {replies : List Envelope}
    (h : AnsweredBy item replies) (hItem : isNoise item = false) :
    replies.filter (· ≠ denial) = replies := by
  have hKept : ∀ {session : SessionId} {reply : Message}, reply.tag ≠ .deny →
      [(⟨session, reply⟩ : Envelope)].filter (· ≠ denial) = [⟨session, reply⟩] := by
    intro session reply hTag
    have hDenial : (⟨session, reply⟩ : Envelope) ≠ denial :=
      fun hSame => hTag (congrArg (·.message.tag) hSame)
    simp [hDenial]
  cases h with
  | denied => cases hItem
  | stored => exact hKept (by simp [Message.bare])
  | requested about => exact hKept (by rcases about with hTag | hTag <;> simp [hTag])
  | passed => rfl

/-- What is left of a service without the denials. -/
def Service.undenied (service : Service ρ) : Service ρ :=
  { service with replies := service.replies.filter (· ≠ denial) }

omit [RandomSource ρ] in
theorem Service.undenied_eq {service : Service ρ} (h : service.replies = []) :
    service.undenied = service := by
  rw [undenied, h, List.filter_nil, ← h]

/-- Without the frames that the relay does not handle, everything is as with them, but for the
denials. -/
theorem Healthy.serve_filter (h : relay.Healthy) (source : ρ) {bodies : List Bytes}
    (hBodies : ∀ body ∈ bodies, body.length ≤ Wire.bodyLimit) :
    relay.serve source ((bodies.filter fun body => !isNoise (.ofBody body)).map .ofBody) =
      (relay.serve source (bodies.map .ofBody)).undenied := by
  induction bodies generalizing relay source with
  | nil => rfl
  | cons body rest ih =>
      obtain ⟨hBody, hRest⟩ := List.forall_mem_cons.mp hBodies
      cases hNoise : isNoise (.ofBody body) with
      | true =>
          obtain ⟨replies, hAnswer, hReplies⟩ := answer_noise relay source hNoise
          simp only [List.filter_cons, hNoise, Bool.not_true, Bool.false_eq_true, if_false,
            List.map_cons, Relay.serve, hAnswer, if_true, Service.undenied, List.filter_append,
            hReplies, List.nil_append]
          exact ih h source hRest
      | false =>
          simp only [List.filter_cons, hNoise, Bool.not_false, if_true, List.map_cons,
            Relay.serve]
          rcases h.answer_item source (Wire.Item.ofBody_ne_oversized body) with
            ⟨hGoesOn, hAnswered⟩ | ⟨hStops, hSilent, -⟩
          · simp only [hGoesOn, if_true, Service.undenied, List.filter_append,
              hAnswered.filter hNoise,
              ih (h.answer source hBody) _ hRest]
          · simp only [hStops, Bool.false_eq_true, if_false, Service.undenied_eq hSilent]

/-- What comes of complete frames that arrive on a connection. -/
def receive (relay : Relay) (source : ρ) (bodies : List Bytes) : Service ρ :=
  relay.serve source (Wire.Decoder.start.feed (bodies.flatMap Wire.framed)).2

/-- Bodies within the limit are served as the items that they are. -/
theorem receive_eq (relay : Relay) (source : ρ) {bodies : List Bytes}
    (h : ∀ body ∈ bodies, body.length ≤ Wire.bodyLimit) :
    relay.receive source bodies = relay.serve source (bodies.map .ofBody) := by
  rw [receive, Wire.Decoder.feed_frames h]

/-- What a relay makes of complete frames, whatever is in them. -/
structure Withstands (relay : Relay) (source : ρ) (bodies : List Bytes) : Prop where
  /-- No handler fails, at whichever frame. -/
  handles : ∀ before body after envelope failure, bodies = before ++ body :: after →
    Wire.ofBody? body = some envelope →
      ((relay.receive source before).relay.dispatch (relay.receive source before).source
        envelope.session envelope.message).response ≠ .failed failure
  /-- The frames are answered one by one and in order. Where this ends before the last of them, it
  ends at one that asks for a derived key that fits no frame. -/
  answers : ∃ served unserved answers, bodies = served ++ unserved ∧
    List.Forall₂ AnsweredBy (served.map .ofBody) answers ∧
    (relay.receive source bodies).replies = answers.flatten ∧
    (unserved = [] ∧ (relay.receive source bodies).goesOn = true ∨
      ∃ body rest, unserved = body :: rest ∧ (relay.receive source bodies).goesOn = false ∧
        (relay.receive source served).relay.Overtaxes (relay.receive source served).source
          (.ofBody body))
  /-- In a ring of moderate size all frames are answered. -/
  goesOn : relay.context.ringDimension.toNat ≤ 2 ^ 19 →
    (relay.receive source bodies).goesOn = true
  /-- Bringing in or leaving out frames that the relay does not handle changes the denials and
  nothing else. -/
  noise : ∀ others : List Bytes, (∀ body ∈ others, body.length ≤ Wire.bodyLimit) →
    (others.filter fun body => !isNoise (.ofBody body)) =
      (bodies.filter fun body => !isNoise (.ofBody body)) →
    (relay.receive source others).undenied = (relay.receive source bodies).undenied

/-- Whatever has been sent to a relay before, it withstands whatever frames arrive. -/
theorem frames_withstood {params : Scheme.ContextParams} {cc : Scheme.Context}
    (hContext : Scheme.Context.generate params = .ok cc) {earlier : List (Call ρ)}
    (hEarlier : ∀ call ∈ earlier, Wire.Arrives call.envelope) (source : ρ) {bodies : List Bytes}
    (hBodies : ∀ body ∈ bodies, body.length ≤ Wire.bodyLimit) :
    ((⟨cc, .start⟩ : Relay).after earlier).Withstands source bodies := by
  have hHealthy : ((⟨cc, .start⟩ : Relay).after earlier).Healthy :=
    (healthy_start (Scheme.Context.isGenerated_of_generate hContext)).after hEarlier
  obtain ⟨served, unserved, answers, rfl, hAnswers, hReplies, hEnd⟩ :=
    hHealthy.serve_frames source hBodies
  have hServed : ∀ body ∈ served, body.length ≤ Wire.bodyLimit :=
    fun body hMem => hBodies body (List.mem_append_left unserved hMem)
  rw [← receive_eq _ source hBodies] at hReplies hEnd
  rw [← receive_eq _ source hServed] at hEnd
  constructor
  case handles =>
    intro before body after envelope failure hSplit hFound
    have hBefore : ∀ other ∈ before, other.length ≤ Wire.bodyLimit :=
      fun other hMem => hBodies other (hSplit ▸ List.mem_append_left _ hMem)
    rw [receive_eq _ source hBefore]
    exact (hHealthy.serve source hBefore).response_ne_failed _ envelope failure
  case answers => exact ⟨served, unserved, answers, rfl, hAnswers, hReplies, hEnd⟩
  case goesOn =>
    intro hSmall
    obtain ⟨-, hGoesOn⟩ | ⟨body, rest, -, -, hOvertaxes⟩ := hEnd
    · exact hGoesOn
    · rw [receive_eq _ source hServed] at hOvertaxes
      refine absurd hOvertaxes ((hHealthy.serve source hServed).not_overtaxes ?_ _ _)
      rwa [context_serve]
  case noise =>
    intro others hOthers hSame
    rw [receive_eq _ source hOthers, receive_eq _ source hBodies,
      ← hHealthy.serve_filter source hOthers, ← hHealthy.serve_filter source hBodies, hSame]

theorem frames_withstood_sample :
    ((⟨⟨4, 6⟩, .start⟩ : Relay).after [(⟨0, ⟨⟨List.replicate 32 0, rfl⟩,
      .send .publicKey [7]⟩, ⟨1⟩⟩ : Call Congruential)]).Withstands (⟨2⟩ : Congruential)
        [[], Wire.body ⟨⟨List.replicate 32 0, rfl⟩, .bare (.ack .ct1)⟩,
          Wire.body ⟨⟨List.replicate 32 0, rfl⟩, .request .publicKey⟩] := by
  have hContext : Scheme.Context.generate ⟨4, 6⟩ = .ok ⟨4, 6⟩ := by decide
  refine frames_withstood hContext ?_ _ ?_
  · intro call hMem
    rw [List.mem_singleton.mp hMem]
    exact Wire.arrives_iff.mpr (by decide)
  · decide

/-- Two keys are stored, and where the key derived from them fits no frame, the request for it is
the end of the service. -/
theorem serve_oversized {cc : Scheme.Context} {source after : ρ} {first second : Bytes}
    {key : Scheme.SwitchKey} (session : SessionId)
    (hDerive : Handler.derive cc first second source = .ok key after)
    (hLarge : Wire.frame? ⟨session, .send .reEncryptionKey (Artifact.encode key)⟩ = none) :
    ∃ relay, (⟨cc, .start⟩ : Relay).serve source
        [.envelope ⟨session, .send .privateKey first⟩,
          .envelope ⟨session, .send .publicKey second⟩,
          .envelope ⟨session, .request .reEncryptionKey⟩] =
      ⟨[⟨session, .bare (.ack .privateKey)⟩, ⟨session, .bare (.ack .publicKey)⟩], false, relay,
        after⟩ := by
  have hStart : (⟨cc, .start⟩ : Relay).server = .running .empty := rfl
  have hPrivate : ArtifactKind.privateKey.isStored := rfl
  have hPublic : ArtifactKind.publicKey.isStored := rfl
  obtain ⟨one, hOne, hOneSlots⟩ := answer_store hStart hPrivate source session first
  have hBetween : (⟨cc, .running one⟩ : Relay).server = .running one := rfl
  obtain ⟨both, hBoth, hBothSlots⟩ := answer_store hBetween hPublic source session second
  have hServer : (⟨cc, .running both⟩ : Relay).server = .running both := rfl
  have hFirst : both.get? session .privateKey = some first := by
    simp [hBothSlots, hOneSlots]
  have hSecond : both.get? session .publicKey = some second := by
    simp [hBothSlots]
  have hDerived := dispatch_derived hServer hFirst hSecond hDerive
  have hThird : (⟨cc, .running both⟩ : Relay).answer source
      (.envelope ⟨session, .request .reEncryptionKey⟩) = _ := answer_replied hDerived
  refine ⟨⟨cc, .running both⟩, ?_⟩
  simp only [serve, hOne, hBoth, hThird, sendReply, hLarge, if_true, Bool.false_eq_true, if_false,
    List.append_nil, List.singleton_append]

/-- A secret with the same entry everywhere, a public key of zeros, and a request for the key
derived from them. -/
def demands (session : SessionId) (count : Nat) (x : UInt64) : List Envelope :=
  [⟨session, .send .privateKey
      (Artifact.encode (⟨List.replicate count x⟩ : Scheme.PrivateKey))⟩,
    ⟨session, .send .publicKey
      (Artifact.encode (⟨List.replicate count 0, List.replicate count 0⟩ : Scheme.PublicKey))⟩,
    ⟨session, .request .reEncryptionKey⟩]

theorem isAnswered_demands (session : SessionId) (count : Nat) (x : UInt64) :
    ∀ envelope ∈ demands session count x, envelope.message.tag.isAnswered := by
  intro envelope hMem
  simp only [demands, List.mem_cons, List.not_mem_nil, or_false] at hMem
  rcases hMem with rfl | rfl | rfl <;> rfl

/-- All requests of the sample fit their frames. -/
theorem demands_arrive {session : SessionId} {count : Nat} {x : UInt64} (hCount : count ≠ 0)
    (hSecret : count * ((Json.digits x.toNat).length + 1) + 59 ≤ Wire.bodyLimit)
    (hPublic : count * 4 + 67 ≤ Wire.bodyLimit) :
    ∀ envelope ∈ demands session count x, Wire.Arrives envelope := by
  have hVector := Scheme.length_render_replicate hCount x
  have hZeros := Scheme.length_render_replicate hCount 0
  have hPrivateKey := Scheme.length_encode_privateKey ⟨List.replicate count x⟩
  have hPublicKey := Scheme.length_encode_publicKey
    ⟨List.replicate count 0, List.replicate count 0⟩
  rw [UInt64.toNat_zero, Json.digits_zero, List.length_singleton] at hZeros
  dsimp only at hPrivateKey hPublicKey
  simp only [demands, List.mem_cons, List.not_mem_nil, or_false, forall_eq_or_imp, forall_eq]
  refine ⟨Wire.arrives_of_le _ _ ?_, Wire.arrives_of_le _ _ ?_, Wire.arrives_bare _ _⟩
  · omega
  · omega

/-- In a large ring the key derived from them fits no frame. -/
theorem frame?_derived {count : Nat} {x : UInt64} (hCount : count ≠ 0)
    (hLarge : Wire.bodyLimit < count * ((Json.digits x.toNat).length + 1) + count * 2 + 68)
    (session : SessionId) :
    Wire.frame? ⟨session, .send .reEncryptionKey (Artifact.encode
      (⟨List.replicate count x, List.replicate count 0⟩ : Scheme.SwitchKey))⟩ = none := by
  have hVector := Scheme.length_render_replicate hCount x
  have hZeros := Scheme.length_render_replicate hCount 0
  have hKey := Scheme.length_encode_switchKey ⟨List.replicate count x, List.replicate count 0⟩
  have hTag : (Wire.writeTag (.send .reEncryptionKey)).length = 8 := by decide
  rw [UInt64.toNat_zero, Json.digits_zero, List.length_singleton] at hZeros
  dsimp only at hKey
  rw [Wire.frame?_eq_none_iff, Wire.arrives_iff, Wire.length_body]
  simp only [Message.send, hTag]
  omega

/-- The key for them does not, so the connection ends without a reply to the last request. -/
theorem receive_demands {cc : Scheme.Context} (h : cc.IsValid) {session : SessionId} {count : Nat}
    {x : UInt64} (hCount : cc.ringDimension.toNat = count) (hx : x < cc.plaintextModulus)
    (source : ρ)
    (hArrive : ∀ envelope ∈ demands session count x, Wire.Arrives envelope)
    (hLarge : Wire.frame? ⟨session, .send .reEncryptionKey (Artifact.encode
      (⟨List.replicate count x, List.replicate count 0⟩ : Scheme.SwitchKey))⟩ = none) :
    ((demands session count x).map Wire.body).map Wire.Item.ofBody =
      (demands session count x).map .envelope ∧
    (∀ body ∈ (demands session count x).map Wire.body, body.length ≤ Wire.bodyLimit) ∧
    ((⟨cc, .start⟩ : Relay).receive source ((demands session count x).map Wire.body)).replies =
      [⟨session, .bare (.ack .privateKey)⟩, ⟨session, .bare (.ack .publicKey)⟩] ∧
    ((⟨cc, .start⟩ : Relay).receive source ((demands session count x).map Wire.body)).goesOn =
      false := by
  subst hCount
  have hItems : ((demands session cc.ringDimension.toNat x).map Wire.body).map
      Wire.Item.ofBody = (demands session cc.ringDimension.toNat x).map .envelope := by
    rw [List.map_map]
    refine List.map_congr_left fun envelope hMem => ?_
    simp [Wire.Item.ofBody, Wire.ofBody?_body (Wire.arrives_iff.mp (hArrive envelope hMem))]
  have hBodies : ∀ body ∈ (demands session cc.ringDimension.toNat x).map Wire.body,
      body.length ≤ Wire.bodyLimit := by
    intro body hMem
    obtain ⟨envelope, hEnvelope, rfl⟩ := List.mem_map.mp hMem
    exact Wire.arrives_iff.mp (hArrive envelope hEnvelope)
  obtain ⟨after, hDerive⟩ := derive_zeros h hx source
  obtain ⟨relay, hServe⟩ := serve_oversized session hDerive hLarge
  refine ⟨hItems, hBodies, ?_⟩
  rw [receive_eq _ source hBodies, hItems]
  exact ⟨congrArg Service.replies hServe, congrArg Service.goesOn hServe⟩

/-- In a ring of dimension 2097152 three frames can arrive of which the last one, a request for a
derived key, gets no reply. -/
theorem demands_unanswered :
    Scheme.Context.generate ⟨2097152, 1000000⟩ = .ok ⟨2097152, 1000000⟩ ∧
    (∀ body ∈ (demands .default 2097152 999999).map Wire.body, body.length ≤ Wire.bodyLimit) ∧
    ((demands .default 2097152 999999).map Wire.body).map Wire.Item.ofBody =
      (demands .default 2097152 999999).map .envelope ∧
    ((⟨⟨2097152, 1000000⟩, .start⟩ : Relay).receive (⟨0⟩ : Congruential)
      ((demands .default 2097152 999999).map Wire.body)).goesOn = false ∧
    ¬∃ answers, List.Forall₂ AnsweredBy ((demands .default 2097152 999999).map .envelope) answers ∧
      ((⟨⟨2097152, 1000000⟩, .start⟩ : Relay).receive (⟨0⟩ : Congruential)
        ((demands .default 2097152 999999).map Wire.body)).replies = answers.flatten := by
  have hContext : Scheme.Context.generate ⟨2097152, 1000000⟩ = .ok ⟨2097152, 1000000⟩ := by
    decide
  have hDigits : (Json.digits (999999 : UInt64).toNat).length = 6 := by
    have hNat : (999999 : UInt64).toNat = 999999 := by decide
    simp [hNat, Json.digits]
  have hArrive : ∀ envelope ∈ demands .default 2097152 999999, Wire.Arrives envelope := by
    apply demands_arrive
    · decide
    · rw [hDigits]
      decide
    · decide
  have hCount : (2097152 : Nat) ≠ 0 := by decide
  have hLong : Wire.bodyLimit <
      2097152 * ((Json.digits (999999 : UInt64).toNat).length + 1) + 2097152 * 2 + 68 := by
    rw [hDigits]
    decide
  obtain ⟨hItems, hBodies, hReplies, hGoesOn⟩ := receive_demands
    ((Scheme.Context.isGenerated_of_generate hContext).isValid (by decide)) (by decide) (by decide)
    (⟨0⟩ : Congruential) hArrive (frame?_derived hCount hLong .default)
  refine ⟨hContext, hBodies, hItems, hGoesOn, ?_⟩
  rintro ⟨answers, hAnswers, hFlatten⟩
  have hLength := AnsweredBy.length_flatten hAnswers (isAnswered_demands .default 2097152 999999)
  rw [← hFlatten, hReplies] at hLength
  cases hLength

end CipherRelay.Relay
