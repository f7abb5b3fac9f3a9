import CipherRelay.Proofs.Exchange.Runs
import CipherRelay.Proofs.Exchange.Seats
/-!
Leaving and waiting. When a party takes leave the other one has nothing left to fetch, and once both
have left their session is empty. Until then the parties never wait for each other in a circle.
-/
namespace CipherRelay

open Party Scheme

/-- Whether a participant has halted and the relay has taken all its messages. -/
def Seat.HasLeft {ρ : Type} (seat : Seat ρ) : Prop :=
  seat.participant.halted ∧ seat.outbox = []

/-- Whether a seat's next message to the relay is a leave. -/
def Seat.TakesLeave {ρ : Type} (seat : Seat ρ) : Prop :=
  ∃ role rest, seat.outbox = .disconnect role :: rest

namespace Exchange.Conduct

variable {D S L S' L' ρ : Type} [DecidableEq S] [ToString S] [DecidableEq S'] [ToString S']
  [RandomSource ρ] {own : Conduct D S L ρ} {peer : Conduct D S' L' ρ} {setting : Setting D}
  {d d' : D} {mark mark' : Mark} {i j : Nat} {exchange after : Exchange ρ} {events : List Event}
  {seat seat' : Seat ρ}

omit [DecidableEq S'] [ToString S'] [RandomSource ρ] in
/-- A seat has been left exactly when its farewell has been served. -/
theorem Fits.hasLeft_iff (h : own.Fits peer setting) (hSeat : own.Sits setting d mark seat) :
    seat.HasLeft ↔ mark = .left := by
  rw [Seat.HasLeft, h.halted_iff hSeat]
  cases mark with
  | leaves => simp [hSeat.outbox_of_leaves]
  | left =>
      obtain ⟨machine, -, -, rfl⟩ := hSeat
      simp
  | _ => simp

omit [DecidableEq S] [ToString S] [RandomSource ρ] in
theorem Sits.takesLeave_iff (hSeat : own.Sits setting d mark seat) :
    seat.TakesLeave ↔ mark = .leaves := by
  cases mark with
  | asks i =>
      obtain ⟨s, message, policy, attempts, hPath, hMessage, -, rfl⟩ := hSeat
      refine ⟨fun ⟨role, rest, hOutbox⟩ => ?_, nofun⟩
      obtain rfl := (List.cons.inj hOutbox).1
      cases hErrand : own.errand s <;> rw [hErrand] at hMessage <;> cases hMessage
  | hears i succeeds =>
      obtain ⟨s, _, policy, attempts, -, -, rfl⟩ := hSeat
      exact ⟨nofun, nofun⟩
  | failed i succeeds =>
      obtain ⟨s, policy, attempts, data, failure, -, -, rfl⟩ := hSeat
      exact ⟨nofun, nofun⟩
  | leaves => exact ⟨fun _ => rfl, fun _ => ⟨_, [], hSeat.outbox_of_leaves⟩⟩
  | left =>
      obtain ⟨machine, -, -, rfl⟩ := hSeat
      exact ⟨nofun, nofun⟩

/-- Once the relay has taken a party's leave, the party has left. -/
theorem Partners.hasLeft (h : own.Partners peer setting)
    (hHolds : own.Holds peer setting d mark mark' i j exchange) {role : Role}
    (hTakes : TakesLeave setting.session exchange events after i role)
    (hSeat : after.seats[i]? = some seat) : seat.HasLeft := by
  obtain ⟨before, later, middle, next, taken, rest, rfl, hBefore, hTaken, hOutbox, hServe,
    hLater⟩ := hTakes
  -- The party is at `leaves` before the relay takes its leave, at `left` then, and stays there.
  obtain ⟨d₁, mark₁, mark₁', -, -, hHolds₁, -⟩ := h.runs hHolds hBefore
  obtain ⟨d₂, mark₂, mark₂', hMoves, -, hHolds₂⟩ := h.step hHolds₁ (by trivial) hServe
  obtain ⟨d₃, mark₃, mark₃', hFollows, -, hHolds₃, -⟩ := h.runs hHolds₂ hLater
  obtain rfl : mark₁ = .leaves :=
    (hHolds₁.sits hTaken).takesLeave_iff.mp ⟨role, rest, hOutbox⟩
  obtain rfl : mark₂ = .left := hMoves.eq_left_iff.mpr (.inr ⟨rfl, rfl⟩)
  exact (h.fits.hasLeft_iff (hHolds₃.sits hSeat)).mpr hFollows.eq_left

/-- When a party has done all its errands, the other one is at an errand that fetches nothing,
unless it has halted. -/
theorem Partners.closing (h : own.Partners peer setting)
    (hReleases : Releases own.course peer.course)
    (hHolds : own.Holds peer setting d mark mark' i j exchange)
    (hDone : mark.done own.course = own.course.length) {later : Mark}
    (hFollows : mark'.Follows peer.course later) (hSeat : peer.Sits setting d' later seat')
    (hLive : seat'.participant.halted = false) :
    ∃ s, peer.path[later.place peer.course]? = some s ∧ (peer.errand s).Closing ∧
      seat'.participant.trigger? = some (peer.errand s).trigger ∧
      seat'.participant.outbound? = (peer.errand s).message? (setting.payload d') := by
  obtain ⟨s, hPath, hStays, hTrigger, hOutbound⟩ := h.fits'.waits hSeat hLive
  obtain ⟨now, -, hNow⟩ := hHolds.seat'
  have hStays' : mark'.gone = false :=
    Bool.eq_false_of_not_eq_true fun hGone => by simp [hFollows.2 hGone] at hStays
  refine ⟨s, hPath, ?_, hTrigger, hOutbound⟩
  exact hReleases.closing hHolds.shared.earned hDone hNow.done_le hStays' hFollows rfl
    (getElem?_course hPath)

/-- From the moment at which a party takes leave the other one goes on on no artifact any more. -/
theorem Partners.takes_nothing (h : own.Partners peer setting)
    (hReleases : Releases own.course peer.course)
    (hHolds : own.Holds peer setting d mark mark' i j exchange)
    (hSeat : exchange.seats[i]? = some seat) (hLeaves : seat.TakesLeave)
    (hRuns : Runs setting.session exchange events after) (hSeat' : after.seats[j]? = some seat')
    (hLive : seat'.participant.halted = false) (kind : ArtifactKind) :
    seat'.participant.trigger? ≠ some (.send kind) := by
  obtain rfl : mark = .leaves := (hHolds.sits hSeat).takesLeave_iff.mp hLeaves
  obtain ⟨d', next, next', -, hFollows, hHolds', -⟩ := h.runs hHolds hRuns
  obtain ⟨s, -, hClosing, hTrigger, -⟩ :=
    h.closing hReleases hHolds rfl hFollows (hHolds'.sits' hSeat') hLive
  rw [hTrigger]
  cases hErrand : peer.errand s with
  | store kind => simp [Errand.trigger]
  | watch kind => simp [Errand.trigger]
  | greeting | context | fetch => simp [hErrand, Errand.Closing] at hClosing

/-- A party that watches the other one halts only after it has left. -/
theorem Partners.leaves_after (h : own.Partners peer setting)
    (hWatches : ∃ errand ∈ peer.course, errand.Watches)
    (hHolds : own.Holds peer setting d mark mark' i j exchange)
    (hSeat' : exchange.seats[j]? = some seat') (hHalted : seat'.participant.halted) :
    mark = .left := by
  have hDone : mark'.done peer.course = peer.course.length := by
    rcases (h.fits'.halted_iff (hHolds.sits' hSeat')).mp hHalted with rfl | rfl <;> rfl
  have hGone := hHolds.shared.earned'.gone_of_watches hDone hWatches
  cases mark with
  | left => rfl
  | _ => cases hGone

omit [DecidableEq S] [ToString S] [DecidableEq S'] [ToString S'] [RandomSource ρ] in
/-- Once both have left, no slot of their session is filled. -/
theorem Shared.empty {relay : Relay} (hShared : own.Shared peer setting d .left .left relay) :
    ∃ store, relay.server = .running store ∧
      ∀ kind, store.get? setting.session kind = none := by
  obtain ⟨store, hServer, hSlots⟩ := hShared.slots
  refine ⟨store, hServer, fun kind => Option.eq_none_iff_forall_ne_some.mpr fun bytes hSome => ?_⟩
  obtain ⟨⟨hGone, -⟩ | ⟨hGone, -⟩, -⟩ := (hSlots kind bytes).mp hSome <;> cases hGone

/-- Where both parties are still there and have sent a message, the relay would let one of them go
on. -/
theorem Partners.unblocked (h : own.Partners peer setting)
    (hAccord : Accord own.course peer.course)
    (hHolds : own.Holds peer setting d mark mark' i j exchange)
    (hSeat : own.Sits setting d mark seat) (hSeat' : peer.Sits setting d mark' seat')
    (hLive : seat.participant.halted = false) (hLive' : seat'.participant.halted = false)
    {message message' : Message} (hMessage : seat.participant.outbound? = some message)
    (hMessage' : seat'.participant.outbound? = some message') (source : ρ) :
    (∃ tag, seat.participant.trigger? = some tag ∧
      exchange.relay.Answers source setting.session message tag) ∨
    ∃ tag, seat'.participant.trigger? = some tag ∧
      exchange.relay.Answers source setting.session message' tag := by
  obtain ⟨s, hPath, hStays, hTrigger, hOutbound⟩ := h.fits.waits hSeat hLive
  obtain ⟨s', hPath', hStays', hTrigger', hOutbound'⟩ := h.fits'.waits hSeat' hLive'
  have hPresent : ∀ kind, .store kind ∈ given own.course peer.course mark mark' →
      Present own.course peer.course mark mark' kind :=
    fun kind hMem => (List.mem_append.mp hMem).imp (⟨hStays, ·⟩) (⟨hStays', ·⟩)
  rcases hAccord.unblocked_of_place (getElem?_course hPath) (getElem?_course hPath') with
    hMet | hMet
  · refine .inl ⟨_, hTrigger, h.answers hHolds.shared hPath (hOutbound.symm.trans hMessage)
      (fun kind hErrand slot hSlot => hPresent slot ?_) (fun kind hErrand => ?_) source⟩
    · rw [hErrand] at hMet
      exact hMet slot hSlot
    · rw [hErrand] at hMet
      cases hMet
  · refine .inr ⟨_, hTrigger', h.symm.answers hHolds.shared.symm hPath'
      (hOutbound'.symm.trans hMessage') (fun kind hErrand slot hSlot => ?_)
      (fun kind hErrand => ?_) source⟩
    · rw [hErrand] at hMet
      exact (hPresent slot (hMet slot hSlot)).symm
    · rw [hErrand] at hMet
      cases hMet

/-- Where one party has left, the relay would let the other one go on. -/
theorem Partners.unblocked_of_left (h : own.Partners peer setting)
    (hReleases : Releases own.course peer.course)
    (hHolds : own.Holds peer setting d .left mark' i j exchange)
    (hSeat' : exchange.seats[j]? = some seat') (hLive : seat'.participant.halted = false)
    (source : ρ) :
    ∃ message tag, seat'.participant.outbound? = some message ∧
      seat'.participant.trigger? = some tag ∧
      exchange.relay.Answers source setting.session message tag := by
  obtain ⟨s, hPath, hClosing, hTrigger, hOutbound⟩ :=
    h.closing hReleases hHolds rfl (.refl _ _) (hHolds.sits' hSeat') hLive
  obtain ⟨message, hMessage⟩ : ∃ message,
      (peer.errand s).message? (setting.payload d) = some message := by
    cases hErrand : peer.errand s with
    | store kind | watch kind => exact ⟨_, rfl⟩
    | greeting | context | fetch => simp [hErrand, Errand.Closing] at hClosing
  refine ⟨message, _, hOutbound.trans hMessage, hTrigger,
    h.symm.answers hHolds.shared.symm hPath hMessage (fun kind hErrand => ?_)
      (fun kind hErrand => ?_) source⟩
  · simp [hErrand, Errand.Closing] at hClosing
  · have hAt := getElem?_course hPath
    rw [hErrand] at hAt
    have hStored := (h.fits'.watched _ kind hAt).2
    rintro (⟨-, hMem⟩ | ⟨hGone, -⟩)
    · exact h.fits.not_store h.fits' h.roles hStored (List.mem_of_mem_take hMem)
    · cases hGone

end Exchange.Conduct

end CipherRelay
