import CipherRelay.Proofs.Exchange.Sharing
/-!
The relay's answers to the messages of a party. Each answer lets the party go on exactly if its
errand can succeed at that moment, and whatever the relay does for one party leaves everything that
the other one knows and has handed over as it was.
-/
namespace CipherRelay.Exchange.Conduct

open Party Scheme

variable {D S L S' L' ρ : Type} [RandomSource ρ] {own : Conduct D S L ρ} {peer : Conduct D S' L' ρ}
  {setting : Setting D} {d : D} {mark' : Mark} {relay : Relay} {seat : Seat ρ}

/-- The relay answers a party's message: it lets the party go on exactly if the errand can succeed
now, and it changes nothing that either party knows. -/
def Answered (own : Conduct D S L ρ) (peer : Conduct D S' L' ρ) (setting : Setting D) (d : D)
    (i : Nat) (s : S) (mark' : Mark) (seat : Seat ρ) (relay : Relay) (source : ρ)
    (message : Message) : Prop :=
  ∃ d' succeeds reply relay' after,
    relay.dispatch source setting.session message = ⟨.handled (some reply), relay', after⟩ ∧
    (if succeeds then reply = (own.errand s).answer setting.context (setting.payload d')
      else (own.errand s).retryOn = some reply.tag) ∧
    own.waiting setting d' s = own.waiting setting d s ∧
    own.Shared peer setting d' (.hears i succeeds) mark' relay' ∧
    peer.Sits setting d' mark' seat

variable {i : Nat} {s : S} {kind : ArtifactKind}
  (hShared : own.Shared peer setting d (.asks i) mark' relay)
  (hSeat : peer.Sits setting d mark' seat) (hPath : own.path[i]? = some s)
include hShared hSeat hPath

theorem answered_context (hErrand : own.errand s = .context) (source : ρ) :
    own.Answered peer setting d i s mark' seat relay source (.request .cryptoContext) := by
  have hAt := hErrand ▸ getElem?_course hPath
  refine ⟨d, true, _, relay, source, Relay.dispatch_context source _, ?_, rfl,
    hShared.succeed_reading hAt trivial (by simp), hSeat⟩
  rw [if_pos rfl, hShared.context, hErrand]
  rfl

variable [DecidableEq S] [ToString S]

/-- What is stored is acknowledged, and present from then on. -/
theorem Fits.answered_store (h : own.Fits peer setting) (hErrand : own.errand s = .store kind)
    (hFeasible : setting.feasible kind) (source : ρ) :
    own.Answered peer setting d i s mark' seat relay source
      (.send kind (setting.payload d kind)) := by
  have hAt := hErrand ▸ getElem?_course hPath
  have hKind := h.isStored (List.mem_of_getElem? hAt)
  obtain ⟨store, hServer, hSlots⟩ := hShared.slots
  obtain ⟨after, hDispatch, hGet⟩ := Relay.dispatch_store hServer hKind source setting.session
    (setting.payload d kind)
  refine ⟨d, true, _, _, source, hDispatch, by rw [hErrand]; rfl, rfl, ?_, hSeat⟩
  refine hShared.succeed hAt trivial (fun other hSame => Errand.store.inj hSame ▸ hFeasible) rfl
    ⟨after, rfl, fun other bytes => ?_⟩
  rw [hGet]
  by_cases hSame : kind = other
  · subst hSame
    simp [eq_comm]
  · simp [hSame, hSlots]

variable [DecidableEq S'] [ToString S']

/-- What is fetched is sent if it is present, and refused if it is not. -/
theorem Fits.answered_fetch (h : own.Fits peer setting) (h' : peer.Fits own setting)
    (hErrand : own.errand s = .fetch kind) (hKind : kind ≠ .reEncryptionKey) (source : ρ) :
    own.Answered peer setting d i s mark' seat relay source (.request kind) := by
  have hAt := hErrand ▸ getElem?_course hPath
  have hStored := h.isStored_of_fetch h' (List.mem_of_getElem? hAt) hKind
  obtain ⟨store, hServer, -⟩ := hShared.slots
  have hDispatch := Relay.dispatch_fetch hServer hStored source setting.session
  rcases hShared.slot_cases hServer kind with ⟨hPresent, hGet⟩ | ⟨-, hGet⟩
  · rw [hGet] at hDispatch
    refine ⟨d, true, _, relay, source, hDispatch, by rw [hErrand]; rfl, rfl,
      hShared.succeed_reading hAt ?_ (by simp), hSeat⟩
    intro other hOther
    rw [sources_of_isStored hStored, List.mem_singleton] at hOther
    exact hOther ▸ ((present_hears_iff hAt mark' kind).mpr (.inl hPresent)).mem_given
  · rw [hGet] at hDispatch
    exact ⟨d, false, _, relay, source, hDispatch, by rw [hErrand]; rfl, rfl, hShared.stay, hSeat⟩

/-- What is watched is sent until the other one has cleared it, and refused from then on. -/
theorem Fits.answered_watch (h : own.Fits peer setting) (h' : peer.Fits own setting)
    (hRoles : own.role ≠ peer.role) (hErrand : own.errand s = .watch kind) (source : ρ) :
    own.Answered peer setting d i s mark' seat relay source (.request kind) := by
  have hAt := hErrand ▸ getElem?_course hPath
  have hStored := h'.isStored (h.watched i kind hAt).2
  obtain ⟨store, hServer, -⟩ := hShared.slots
  have hDispatch := Relay.dispatch_fetch hServer hStored source setting.session
  rcases hShared.slot_cases hServer kind with ⟨-, hGet⟩ | ⟨hAbsent, hGet⟩
  · rw [hGet] at hDispatch
    exact ⟨d, false, _, relay, source, hDispatch, by rw [hErrand]; rfl, rfl, hShared.stay, hSeat⟩
  · rw [hGet] at hDispatch
    exact ⟨d, true, _, relay, source, hDispatch, by rw [hErrand]; rfl, rfl,
      hShared.succeed_reading hAt (h.gone_of_absent h' hRoles hAt hShared.earned hAbsent) (by simp),
      hSeat⟩

/-- A key is derived from the two keys that it needs, or it counts as not yet there. -/
theorem Fits.answered_derive (h : own.Fits peer setting) (h' : peer.Fits own setting)
    (hDerives : own.Derives (ρ := ρ) peer setting)
    (hErrand : own.errand s = .fetch .reEncryptionKey) (source : ρ) :
    own.Answered peer setting d i s mark' seat relay source (.request .reEncryptionKey) := by
  have hAt := hErrand ▸ getElem?_course hPath
  obtain ⟨hPeer, hDerives⟩ := hDerives (List.mem_of_getElem? hAt)
  obtain ⟨store, hServer, hSlots⟩ := hShared.slots
  have hMissing : store.get? setting.session .privateKey = none ∨
      store.get? setting.session .publicKey = none →
      own.Answered peer setting d i s mark' seat relay source (.request .reEncryptionKey) :=
    fun hMissing => ⟨d, false, _, relay, source, Relay.dispatch_underivable hServer source hMissing,
      by rw [hErrand]; rfl, rfl, hShared.stay, hSeat⟩
  rcases hShared.slot_cases hServer .privateKey with ⟨hPrivate, hGet⟩ | ⟨-, hGet⟩
  case inr => exact hMissing (.inl hGet)
  rcases hShared.slot_cases hServer .publicKey with ⟨hPublic, hGet'⟩ | ⟨-, hGet'⟩
  case inr => exact hMissing (.inr hGet')
  -- The relay draws the key on each request, so the draws are others from here on.
  obtain ⟨d', key, after, hDerive, hPayload, hOthers, hOwn, hKnows⟩ :=
    hDerives (hShared.feasible _ hPrivate.mem_given) d source
  rw [← hShared.context] at hDerive
  have hDispatch := Relay.dispatch_derived hServer hGet hGet' hDerive
  have hStored : ∀ {kind : ArtifactKind}, .store kind ∈ own.course ∨ .store kind ∈ peer.course →
      kind ≠ .reEncryptionKey := by
    rintro _ (hMem | hMem) rfl
    · cases h.owned _ hMem
    · cases h'.owned _ hMem
  refine ⟨d', true, _, relay, after, hDispatch, ?_, ?_, hShared.succeed hAt ?_ ?_ rfl ?_, ?_⟩
  · rw [if_pos rfl, hErrand, Errand.answer, hPayload]
  · funext policy attempts
    simp only [waiting, hOwn s hErrand, hErrand]
    rfl
  · intro other hOther
    simp only [sources, List.mem_cons, List.not_mem_nil, or_false] at hOther
    rcases hOther with rfl | rfl
    · exact ((present_hears_iff hAt mark' _).mpr (.inl hPrivate)).mem_given
    · exact ((present_hears_iff hAt mark' _).mpr (.inl hPublic)).mem_given
  · simp
  · refine ⟨store, hServer, fun kind bytes => ?_⟩
    rw [hSlots, or_iff_left (by simp)]
    apply and_congr_right
    intro hPresent
    rw [hOthers kind (hStored ?_)]
    exact hPresent.imp (fun h => List.mem_of_mem_take h.2) fun h => List.mem_of_mem_take h.2
  · refine hSeat.congr (hKnows _) (fun kind hMem => hOthers kind ?_) fun kind hMem =>
      hOthers kind ?_
    · exact hStored (.inr (List.mem_of_mem_take hMem))
    · rintro rfl
      exact hPeer (List.mem_of_mem_take hMem)

/-- Each message of a participant at an errand is answered as the errand says. -/
theorem Fits.answered (h : own.Fits peer setting) (h' : peer.Fits own setting)
    (hRoles : own.role ≠ peer.role) (hDerives : own.Derives (ρ := ρ) peer setting)
    {message : Message} (hMessage : (own.errand s).message? (setting.payload d) = some message)
    (hFeasible : ∀ kind, own.errand s = .store kind → setting.feasible kind) (source : ρ) :
    own.Answered peer setting d i s mark' seat relay source message := by
  cases hErrand : own.errand s with
  | greeting =>
      rw [hErrand] at hMessage
      cases hMessage
  | context =>
      rw [hErrand] at hMessage
      cases hMessage
      exact answered_context hShared hSeat hPath hErrand source
  | store kind =>
      rw [hErrand] at hMessage
      cases hMessage
      exact h.answered_store hShared hSeat hPath hErrand (hFeasible kind hErrand) source
  | fetch kind =>
      rw [hErrand] at hMessage
      cases hMessage
      by_cases hKind : kind = .reEncryptionKey
      · subst hKind
        exact h.answered_derive hShared hSeat hPath h' hDerives hErrand source
      · exact h.answered_fetch hShared hSeat hPath h' hErrand hKind source
  | watch kind =>
      rw [hErrand] at hMessage
      cases hMessage
      exact h.answered_watch hShared hSeat hPath h' hRoles hErrand source

end CipherRelay.Exchange.Conduct
