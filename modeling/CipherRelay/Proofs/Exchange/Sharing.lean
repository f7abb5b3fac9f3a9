import CipherRelay.Proofs.Exchange.Conduct
/-!
What two parties share. A draw that a conduct keeps from the other party leaves that party's seat as
it was. What is shared stays in order when a party's errand succeeds, when it goes on to the next
one, and when it asks once more.
-/
namespace CipherRelay.Exchange

open Party Scheme

theorem Errand.message?_congr {payload payload' : ArtifactKind → Bytes} {errand : Errand}
    (h : ∀ kind, errand = .store kind → payload' kind = payload kind) :
    errand.message? payload' = errand.message? payload := by
  cases errand with
  | store kind => rw [message?, message?, h kind rfl]
  | _ => rfl

theorem Errand.answer_congr {cc : Context} {payload payload' : ArtifactKind → Bytes}
    {errand : Errand} (h : ∀ kind, errand = .fetch kind → payload' kind = payload kind) :
    errand.answer cc payload' = errand.answer cc payload := by
  cases errand with
  | fetch kind => rw [answer, answer, h kind rfl]
  | _ => rfl

namespace Conduct

variable {D S L S' L' ρ : Type} {own : Conduct D S L ρ} {peer : Conduct D S' L' ρ}
  {setting : Setting D} {d d' : D} {mark mark' : Mark} {relay : Relay} {seat : Seat ρ}

theorem getElem?_course {i : Nat} {s : S} (h : own.path[i]? = some s) :
    own.course[i]? = some (own.errand s) := by
  rw [course, List.getElem?_map, h]
  rfl

theorem mem_take_course {i : Nat} {s : S} (h : own.path[i]? = some s) :
    own.errand s ∈ own.course.take (i + 1) := by
  refine List.mem_of_getElem? (i := i) ?_
  rw [List.getElem?_take_of_lt (Nat.lt_succ_self i), getElem?_course h]

theorem lt_length_course {i : Nat} {s : S} (h : own.path[i]? = some s) : i < own.course.length :=
  (List.getElem?_eq_some_iff.mp (getElem?_course h)).1

theorem knowsAt_of_getElem? {i : Nat} {s : S} (h : own.path[i]? = some s) (d : D) :
    own.knowsAt d i = own.knows d s := by
  simp only [knowsAt, h]

theorem knowsAt_length (d : D) : own.knowsAt d own.course.length = own.result d := by
  simp [knowsAt, course]

/-- A seat stays as the conduct says when a draw changes that neither its knowledge nor the payloads
it uses depend on. -/
theorem Sits.congr (h : own.Sits setting d mark seat)
    (hKnows : own.knowsAt d' (mark.place own.course) = own.knowsAt d (mark.place own.course))
    (hStore : ∀ kind, .store kind ∈ own.course.take (mark.place own.course + 1) →
      setting.payload d' kind = setting.payload d kind)
    (hFetch : ∀ kind, .fetch kind ∈ own.course.take (mark.done own.course) →
      setting.payload d' kind = setting.payload d kind) :
    own.Sits setting d' mark seat := by
  have hMessage : ∀ {i s}, own.path[i]? = some s → mark.place own.course = i →
      (own.errand s).message? (setting.payload d') =
        (own.errand s).message? (setting.payload d) := by
    rintro i s hPath rfl
    refine Errand.message?_congr fun kind hKind => hStore kind ?_
    exact hKind ▸ mem_take_course hPath
  have hWaiting : ∀ {i s}, own.path[i]? = some s → mark.place own.course = i →
      ∀ policy attempts, own.waiting setting d' s policy attempts =
        own.waiting setting d s policy attempts := by
    intro i s hPath hPlace policy attempts
    rw [hPlace, knowsAt_of_getElem? hPath, knowsAt_of_getElem? hPath] at hKnows
    simp only [waiting, hKnows, hMessage hPath hPlace]
  cases mark with
  | asks i =>
      obtain ⟨s, message, policy, attempts, hPath, hAsk, hFeasible, rfl⟩ := h
      refine ⟨s, message, policy, attempts, hPath, ?_, hFeasible, ?_⟩
      · rw [hMessage hPath rfl, hAsk]
      · rw [hWaiting hPath rfl]
  | hears i succeeds =>
      obtain ⟨s, reply, policy, attempts, hPath, hReply, rfl⟩ := h
      refine ⟨s, reply, policy, attempts, hPath, ?_, by rw [hWaiting hPath rfl]⟩
      cases succeeds with
      | false => exact hReply
      | true =>
          refine hReply.trans (Errand.answer_congr fun kind hKind => hFetch kind ?_).symm
          exact hKind ▸ mem_take_course hPath
  | failed i succeeds =>
      obtain ⟨s, policy, attempts, data, failure, hPath, hData, rfl⟩ := h
      refine ⟨s, policy, attempts, data, failure, hPath,
        hData.imp_left fun ⟨hData, hPardon⟩ => ⟨?_, hPardon⟩, by rw [hWaiting hPath rfl]⟩
      rw [Mark.place, knowsAt_of_getElem? hPath, knowsAt_of_getElem? hPath] at hKnows
      exact hData.trans hKnows.symm
  | leaves =>
      obtain ⟨machine, hHalted, hData, rfl⟩ := h
      rw [Mark.place, knowsAt_length, knowsAt_length] at hKnows
      exact ⟨machine, hHalted, hData.trans hKnows.symm, rfl⟩
  | left =>
      obtain ⟨machine, hHalted, hData, rfl⟩ := h
      rw [Mark.place, knowsAt_length, knowsAt_length] at hKnows
      exact ⟨machine, hHalted, hData.trans hKnows.symm, rfl⟩

/-- No participant has done more errands than its course has. -/
theorem Sits.done_le (h : own.Sits setting d mark seat) :
    mark.done own.course ≤ own.course.length := by
  have hLast : ∀ {i s} {succeeds : Bool}, own.path[i]? = some s →
      i + succeeds.toNat ≤ own.course.length := by
    intro i s succeeds hPath
    have hLt := lt_length_course hPath
    have hBool := Bool.toNat_le succeeds
    omega
  cases mark with
  | asks i =>
      obtain ⟨s, _, _, _, hPath, _⟩ := h
      exact (lt_length_course hPath).le
  | hears i succeeds =>
      obtain ⟨s, _, _, _, hPath, _⟩ := h
      exact hLast hPath
  | failed i succeeds =>
      obtain ⟨s, _, _, _, _, hPath, _⟩ := h
      exact hLast hPath
  | leaves | left => exact Nat.le_refl _

/-- What a party draws disturbs neither the seat of the other one nor what has been handed over. -/
theorem Keeps.sits {i : Nat} (h : own.Keeps peer setting i d d')
    (hEarned : Earned peer.course own.course mark' (.hears i true))
    (hSeat : peer.Sits setting d mark' seat) :
    peer.Sits setting d' mark' seat ∧
      ∀ kind, .store kind ∈ given own.course peer.course (.hears i true) mark' →
        setting.payload d' kind = setting.payload d kind := by
  rcases h with rfl | ⟨bound, hBound, hKnows, hPayload⟩
  · exact ⟨hSeat, fun _ _ => rfl⟩
  · -- A peer beyond the bound would have fetched something that is not there yet.
    have hDone : mark'.done peer.course ≤ bound := by
      refine hBound _ hSeat.done_le fun errand hMem => (hEarned errand hMem).mono ?_ id
      intro other hOther
      exact (List.mem_append.mp hOther).elim (List.mem_append_right _) (List.mem_append_left _)
    have hPlace := (mark'.place_le_done peer.course).trans hDone
    refine ⟨hSeat.congr (hKnows _ hPlace) (fun kind hMem => hPayload kind (.inl ?_))
      fun kind hMem => hPayload kind (.inr ?_), fun kind hMem => hPayload kind (.inl ?_)⟩
    · exact List.mem_append_right _
        (List.take_subset_take_left _ (Nat.succ_le_succ hPlace) hMem)
    · exact List.take_subset_take_left _ hDone hMem
    · rcases List.mem_append.mp hMem with hOwn | hPeer
      · exact List.mem_append_left _ hOwn
      · exact List.mem_append_right _
          (List.take_subset_take_left _ (hDone.trans (Nat.le_succ _)) hPeer)

/-- One more errand that is done adds just that errand. -/
theorem mem_take_succ {course : Course} {i : Nat} {errand other : Errand}
    (h : course[i]? = some errand) :
    other ∈ course.take (i + 1) ↔ other ∈ course.take i ∨ other = errand := by
  rw [List.take_add_one, h, List.mem_append, Option.toList_some, List.mem_singleton]

/-- When an errand has been done, the kind that it stores is there and all that was there before. -/
theorem present_hears_iff {own peer : Course} {i : Nat} {errand : Errand}
    (h : own[i]? = some errand) (mark' : Mark) (kind : ArtifactKind) :
    Present own peer (.hears i true) mark' kind ↔
      Present own peer (.asks i) mark' kind ∨ errand = .store kind := by
  simp only [Present, Mark.done, Mark.gone, Bool.toNat_true, mem_take_succ h, true_and]
  rw [eq_comm (a := errand)]
  tauto

/-- The relay's answer on which a party goes on. -/
theorem Shared.succeed {i : Nat} {errand : Errand} {relay' : Relay}
    (h : own.Shared peer setting d (.asks i) mark' relay) (hAt : own.course[i]? = some errand)
    (hMet : errand.Met (given own.course peer.course (.hears i true) mark') mark'.gone)
    (hFeasible : ∀ kind, errand = .store kind → setting.feasible kind)
    (hContext : relay'.context = relay.context)
    (hSlots : ∃ store, relay'.server = .running store ∧ ∀ kind bytes,
      store.get? setting.session kind = some bytes ↔
        (Present own.course peer.course (.asks i) mark' kind ∨ errand = .store kind) ∧
          bytes = setting.payload d' kind) :
    own.Shared peer setting d' (.hears i true) mark' relay' := by
  have hFollows : (Mark.asks i).Follows own.course (.hears i true) :=
    ⟨Nat.le_succ i, fun hGone => Bool.noConfusion hGone⟩
  refine ⟨hContext.trans h.context, ?_, ?_, h.earned'.follow rfl hFollows, ?_⟩
  · obtain ⟨store, hServer, hSlots⟩ := hSlots
    exact ⟨store, hServer, fun kind bytes => by rw [hSlots, present_hears_iff hAt]⟩
  · intro other hMem
    rcases (mem_take_succ hAt).mp hMem with hBefore | rfl
    · exact (h.earned other hBefore).mono (given_subset hFollows (.refl _ _)) id
    · exact hMet
  · intro kind hMem
    rcases List.mem_append.mp hMem with hOwn | hPeer
    · rcases (mem_take_succ hAt).mp hOwn with hBefore | hNow
      · exact h.feasible kind (List.mem_append_left _ hBefore)
      · exact hFeasible kind hNow.symm
    · exact h.feasible kind (List.mem_append_right _ hPeer)

/-- An errand that stores nothing leaves the mailbox as it is. -/
theorem Shared.succeed_reading {i : Nat} {errand : Errand}
    (h : own.Shared peer setting d (.asks i) mark' relay) (hAt : own.course[i]? = some errand)
    (hMet : errand.Met (given own.course peer.course (.hears i true) mark') mark'.gone)
    (hReads : ∀ kind, errand ≠ .store kind) :
    own.Shared peer setting d (.hears i true) mark' relay := by
  obtain ⟨store, hServer, hSlots⟩ := h.slots
  refine h.succeed hAt hMet (fun kind hKind => absurd hKind (hReads kind)) rfl
    ⟨store, hServer, fun kind bytes => ?_⟩
  rw [hSlots, or_iff_left (hReads kind)]

theorem Shared.stay {i : Nat} (h : own.Shared peer setting d (.asks i) mark' relay) :
    own.Shared peer setting d (.hears i false) mark' relay :=
  ⟨h.context, h.slots, h.earned, h.earned', h.feasible⟩

/-- What the parties share does not change when a party goes on, as far as it hands nothing over and
what it draws disturbs no payload in use. -/
theorem Shared.goOn {after : Mark} (h : own.Shared peer setting d mark mark' relay)
    (hDone : after.done own.course = mark.done own.course) (hGone : after.gone = mark.gone)
    (hPayload : ∀ kind, .store kind ∈ given own.course peer.course mark mark' →
      setting.payload d' kind = setting.payload d kind) :
    own.Shared peer setting d' after mark' relay := by
  have hFollows : mark.Follows own.course after := ⟨hDone.ge, fun h => hGone ▸ h⟩
  refine ⟨h.context, ?_, h.earned.follow hDone (.refl _ _), h.earned'.follow rfl hFollows,
    fun kind hMem => h.feasible kind (by simpa only [given, hDone] using hMem)⟩
  obtain ⟨store, hServer, hSlots⟩ := h.slots
  refine ⟨store, hServer, fun kind bytes => (hSlots kind bytes).trans ?_⟩
  have hPresent : Present own.course peer.course after mark' kind ↔
      Present own.course peer.course mark mark' kind := by
    simp only [Present, hDone, hGone]
  rw [hPresent]
  exact and_congr_right fun hPresent => by rw [hPayload kind hPresent.mem_given]

/-- The slots of the session hold the payloads of what is present, and nothing else. -/
theorem Shared.get?_iff (h : own.Shared peer setting d mark mark' relay)
    {store : Mailbox.Store} (hServer : relay.server = .running store) (kind : ArtifactKind)
    (bytes : Bytes) :
    store.get? setting.session kind = some bytes ↔
      Present own.course peer.course mark mark' kind ∧ bytes = setting.payload d kind := by
  obtain ⟨store', hServer', hSlots⟩ := h.slots
  obtain rfl : store = store' := by
    rw [hServer] at hServer'
    exact Mailbox.Server.running.inj hServer'
  exact hSlots kind bytes

/-- A slot of the session is empty or holds the payload of its kind. -/
theorem Shared.slot_cases (h : own.Shared peer setting d mark mark' relay)
    {store : Mailbox.Store} (hServer : relay.server = .running store) (kind : ArtifactKind) :
    Present own.course peer.course mark mark' kind ∧
        store.get? setting.session kind = some (setting.payload d kind) ∨
      ¬Present own.course peer.course mark mark' kind ∧
        store.get? setting.session kind = none := by
  by_cases hPresent : Present own.course peer.course mark mark' kind
  · exact .inl ⟨hPresent, (h.get?_iff hServer _ _).mpr ⟨hPresent, rfl⟩⟩
  · exact .inr ⟨hPresent, Option.eq_none_iff_forall_ne_some.mpr fun bytes hSome =>
      hPresent ((h.get?_iff hServer _ _).mp hSome).1⟩

/-- Whatever is fetched from the mailbox, but for a derived key, is of a kind that can be stored
there. -/
theorem Fits.isStored_of_fetch [DecidableEq S] [ToString S] [DecidableEq S'] [ToString S']
    (h : own.Fits peer setting) (h' : peer.Fits own setting)
    {kind : ArtifactKind} (hFetch : .fetch kind ∈ own.course) (hKind : kind ≠ .reEncryptionKey) :
    kind.isStored := by
  have hSource : kind ∈ sources kind := by
    cases kind <;> first | exact List.mem_cons_self | exact absurd rfl hKind
  rcases List.mem_append.mp (h.fetched kind hFetch kind hSource) with hOwn | hPeer
  · exact h.isStored hOwn
  · exact h'.isStored hPeer

/-- An artifact that is watched and absent has been cleared by the other party. -/
theorem Fits.gone_of_absent [DecidableEq S] [ToString S] [DecidableEq S'] [ToString S']
    (h : own.Fits peer setting) (h' : peer.Fits own setting)
    (hRoles : own.role ≠ peer.role) {i : Nat} {kind : ArtifactKind}
    (hAt : own.course[i]? = some (.watch kind))
    (hEarned : Earned own.course peer.course (.asks i) mark')
    (hAbsent : ¬Present own.course peer.course (.asks i) mark' kind) : mark'.gone := by
  obtain ⟨hFetched, hStored⟩ := h.watched i kind hAt
  have hSource : kind ∈ sources kind := by
    rw [sources_of_isStored (h'.isStored hStored)]
    exact List.mem_cons_self
  rcases List.mem_append.mp (hEarned _ hFetched kind hSource) with hOwn | hPeer
  · exact absurd hStored (h.not_store h' hRoles (List.mem_of_mem_take hOwn))
  · by_contra hStill
    exact hAbsent (.inr ⟨Bool.eq_false_of_not_eq_true hStill, hPeer⟩)

end Conduct

end CipherRelay.Exchange
