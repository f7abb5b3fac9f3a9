import CipherRelay.Proofs.Exchange.Accord
import CipherRelay.Proofs.Exchange.Steps
/-!
What there is to see of a seat at its mark: whether the participant has halted, what it knows, on
which tag it goes on, and what the relay answers if it takes the participant's last message now.
-/
namespace CipherRelay

namespace Party.Participant

variable {ρ : Type}

/-- The tag on which a participant goes on. -/
def trigger? (participant : Participant ρ) : Option Tag :=
  participant.view fun machine => (machine.table.get? machine.state).map (·.trigger)

def outbound? (participant : Participant ρ) : Option Message :=
  participant.view fun machine => machine.outbound

end Party.Participant

/-- Whether a participant has given up for want of patience, if it has given up, or for want of
memory where the context has no room. -/
def Seat.IsPatient {ρ : Type} (cc : Scheme.Context) (seat : Seat ρ) : Prop :=
  ∀ failure, seat.failure = some failure → Exchange.Pardons cc failure

/-- Whether the relay answers a message with a tag if it takes the message now. -/
def Relay.Answers {ρ : Type} [RandomSource ρ] (relay : Relay) (source : ρ) (session : SessionId)
    (message : Message) (tag : Tag) : Prop :=
  ∃ reply, (relay.dispatch source session message).response = .handled (some reply) ∧
    reply.tag = tag

namespace Exchange.Conduct

open Party Scheme

variable {D S L S' L' ρ : Type} {own : Conduct D S L ρ} {peer : Conduct D S' L' ρ}
  {setting : Setting D} {d : D} {mark mark' : Mark} {relay : Relay} {seat : Seat ρ}

theorem Sits.participant (h : own.Sits setting d mark seat) :
    ∃ machine, seat.participant = own.seat machine := by
  cases mark with
  | asks i =>
      obtain ⟨s, _, policy, attempts, -, -, -, rfl⟩ := h
      exact ⟨_, rfl⟩
  | hears i succeeds =>
      obtain ⟨s, _, policy, attempts, -, -, rfl⟩ := h
      exact ⟨_, rfl⟩
  | failed i succeeds =>
      obtain ⟨s, policy, attempts, data, failure, -, -, rfl⟩ := h
      exact ⟨_, rfl⟩
  | leaves | left =>
      obtain ⟨machine, -, -, rfl⟩ := h
      exact ⟨machine, rfl⟩

/-- Where no action may fail, a participant knows what its conduct says, it has given up for want of
patience or of room at most, and it has halted once it is behind its last errand. -/
theorem Sits.knows (h : own.Sits setting d mark seat) (hExcuse : ¬setting.excuse) :
    ∃ machine, seat.participant = own.seat machine ∧
      machine.data = own.knowsAt d (mark.place own.course) ∧
      (machine.halted → mark.place own.course = own.course.length) ∧
      seat.IsPatient setting.context := by
  cases mark with
  | asks i =>
      obtain ⟨s, _, policy, attempts, hPath, -, -, rfl⟩ := h
      exact ⟨_, rfl, (knowsAt_of_getElem? hPath d).symm, nofun, nofun⟩
  | hears i succeeds =>
      obtain ⟨s, _, policy, attempts, hPath, -, rfl⟩ := h
      exact ⟨_, rfl, (knowsAt_of_getElem? hPath d).symm, nofun, nofun⟩
  | failed i succeeds =>
      obtain ⟨s, policy, attempts, data, failure, hPath, hData, rfl⟩ := h
      obtain ⟨rfl, hPardon⟩ := hData.resolve_right hExcuse
      refine ⟨_, rfl, (knowsAt_of_getElem? hPath d).symm, nofun, ?_⟩
      rintro _ ⟨⟩
      exact hPardon
  | leaves | left =>
      obtain ⟨machine, -, hData, rfl⟩ := h
      exact ⟨machine, rfl, hData.trans (knowsAt_length d).symm, fun _ => rfl, nofun⟩

/-- What is on its way to a participant that waits: the answer on which it goes on, when its errand
is done, or one on which it asks once more. -/
theorem Sits.heard (h : own.Sits setting d mark seat) {message : Message} {rest : List Message}
    (hInbox : seat.inbox = message :: rest) :
    ∃ s policy attempts, seat.participant = own.seat (own.waiting setting d s policy attempts) ∧
      (message = (own.errand s).answer setting.context (setting.payload d) ∧
          own.errand s ∈ own.course.take (mark.done own.course) ∨
        (own.errand s).retryOn = some message.tag) := by
  obtain ⟨i, succeeds, rfl⟩ := h.hears hInbox
  obtain ⟨s, reply, policy, attempts, hPath, hReply, rfl⟩ := h
  cases hInbox
  refine ⟨s, policy, attempts, rfl, ?_⟩
  cases succeeds with
  | true => exact .inl ⟨hReply, mem_take_course hPath⟩
  | false => exact .inr hReply

variable [DecidableEq S] [ToString S]

/-- A participant has halted exactly when it takes leave or has left. -/
theorem Fits.halted_iff (h : own.Fits peer setting) (hSeat : own.Sits setting d mark seat) :
    seat.participant.halted ↔ mark = .leaves ∨ mark = .left := by
  have hView : ∀ machine, (own.seat machine).halted = machine.halted := fun machine => h.view _ _
  cases mark with
  | asks i =>
      obtain ⟨s, _, policy, attempts, -, -, -, rfl⟩ := hSeat
      simp [hView, waiting]
  | hears i succeeds =>
      obtain ⟨s, _, policy, attempts, -, -, rfl⟩ := hSeat
      simp [hView, waiting]
  | failed i succeeds =>
      obtain ⟨s, policy, attempts, data, failure, -, -, rfl⟩ := hSeat
      simp [hView, waiting]
  | leaves | left =>
      obtain ⟨machine, hHalted, -, rfl⟩ := hSeat
      simp [hView, hHalted]

/-- A participant that has not halted waits for the answer to its errand. -/
theorem Fits.waits (h : own.Fits peer setting) (hSeat : own.Sits setting d mark seat)
    (hLive : seat.participant.halted = false) :
    ∃ s, own.path[mark.place own.course]? = some s ∧ mark.gone = false ∧
      seat.participant.trigger? = some (own.errand s).trigger ∧
      seat.participant.outbound? = (own.errand s).message? (setting.payload d) := by
  have hTrigger : ∀ machine, (own.seat machine).trigger? =
      (machine.table.get? machine.state).map (·.trigger) := fun machine => h.view _ _
  have hOutbound : ∀ machine, (own.seat machine).outbound? = machine.outbound :=
    fun machine => h.view _ _
  cases mark with
  | asks i =>
      obtain ⟨s, _, policy, attempts, hPath, -, -, rfl⟩ := hSeat
      exact ⟨s, hPath, rfl, by simp [hTrigger, waiting, h.step], by simp [hOutbound, waiting]⟩
  | hears i succeeds =>
      obtain ⟨s, _, policy, attempts, hPath, -, rfl⟩ := hSeat
      exact ⟨s, hPath, rfl, by simp [hTrigger, waiting, h.step], by simp [hOutbound, waiting]⟩
  | failed i succeeds =>
      obtain ⟨s, policy, attempts, data, failure, hPath, -, rfl⟩ := hSeat
      exact ⟨s, hPath, rfl, by simp [hTrigger, waiting, h.step], by simp [hOutbound, waiting]⟩
  | leaves => exact absurd ((h.halted_iff hSeat).mpr (.inl rfl)) (by simp [hLive])
  | left => exact absurd ((h.halted_iff hSeat).mpr (.inr rfl)) (by simp [hLive])

variable [DecidableEq S'] [ToString S'] [RandomSource ρ]

/-- If the slots are as a party wants them, the relay answers its message with the tag on which it
goes on. -/
theorem Partners.answers (h : own.Partners peer setting)
    (hShared : own.Shared peer setting d mark mark' relay) {i : Nat} {s : S}
    (hPath : own.path[i]? = some s) {message : Message}
    (hMessage : (own.errand s).message? (setting.payload d) = some message)
    (hFetch : ∀ kind, own.errand s = .fetch kind → ∀ slot ∈ sources kind,
      Present own.course peer.course mark mark' slot)
    (hWatch : ∀ kind, own.errand s = .watch kind →
      ¬Present own.course peer.course mark mark' kind) (source : ρ) :
    relay.Answers source setting.session message (own.errand s).trigger := by
  have hAt := getElem?_course hPath
  obtain ⟨store, hServer, -⟩ := hShared.slots
  cases hErrand : own.errand s with
  | greeting =>
      rw [hErrand] at hMessage
      cases hMessage
  | context =>
      rw [hErrand] at hMessage
      cases hMessage
      exact ⟨_, by rw [Relay.dispatch_context], rfl⟩
  | store kind =>
      rw [hErrand] at hMessage hAt
      cases hMessage
      have hKind := h.fits.isStored (List.mem_of_getElem? hAt)
      obtain ⟨after, hDispatch, -⟩ := Relay.dispatch_store hServer hKind source setting.session
        (setting.payload d kind)
      exact ⟨_, by rw [hDispatch], rfl⟩
  | fetch kind =>
      rw [hErrand] at hMessage hAt
      cases hMessage
      have hGet : ∀ slot ∈ sources kind,
          store.get? setting.session slot = some (setting.payload d slot) :=
        fun slot hSlot => ((hShared.slot_cases hServer slot).resolve_right fun hAbsent =>
          hAbsent.1 (hFetch kind hErrand slot hSlot)).2
      by_cases hKind : kind = .reEncryptionKey
      · subst hKind
        obtain ⟨-, hDerives⟩ := h.derives (List.mem_of_getElem? hAt)
        have hPrivate := hFetch .reEncryptionKey hErrand .privateKey (by simp [sources])
        obtain ⟨d', key, after, hDerive, -⟩ :=
          hDerives (hShared.feasible _ hPrivate.mem_given) d source
        rw [← hShared.context] at hDerive
        exact ⟨_, by rw [Relay.dispatch_derived hServer (hGet _ (by simp [sources]))
          (hGet _ (by simp [sources])) hDerive], rfl⟩
      · have hStored := h.fits.isStored_of_fetch h.fits' (List.mem_of_getElem? hAt) hKind
        have hSlot := hGet kind (by rw [sources_of_isStored hStored]; exact List.mem_cons_self)
        exact ⟨_, by rw [Relay.dispatch_fetch hServer hStored, hSlot], rfl⟩
  | watch kind =>
      rw [hErrand] at hMessage hAt
      cases hMessage
      have hStored := h.fits'.isStored (h.fits.watched i kind hAt).2
      have hSlot := ((hShared.slot_cases hServer kind).resolve_left fun hPresent =>
        hWatch kind hErrand hPresent.1).2
      exact ⟨_, by rw [Relay.dispatch_fetch hServer hStored, hSlot], rfl⟩

end Exchange.Conduct

end CipherRelay
