import CipherRelay.Proofs.Exchange.Runs
/-!
Deposits. The relay stores an artifact when it takes a message that carries one. In a run of two
parties what has been stored in their session is at any time what both have handed over according to
their marks. So if no course hands anything over twice, each artifact is stored once at most; and if
each course hands an artifact over only after it has handed over or fetched what this one requires,
then all of that has been stored before.
-/
namespace CipherRelay.Exchange

variable {ρ : Type} {session : SessionId}

/-- The artifact that is stored in a session by an event. -/
def deposit? (exchange : Exchange ρ) (session : SessionId) : Event → Option ArtifactKind
  | .receive _ => none
  | .serve i => do
      let seat ← exchange.seats[i]?
      let message ← seat.outbox.head?
      if seat.session = session then message.tag.deposit? else none
  | .outside other message => if other = session then message.tag.deposit? else none

theorem deposit?_serve {exchange : Exchange ρ} {i : Nat} {seat : Seat ρ} {message : Message}
    {outbox : List Message} (hSeat : exchange.seats[i]? = some seat)
    (hOutbox : seat.outbox = message :: outbox) :
    exchange.deposit? session (.serve i) =
      if seat.session = session then message.tag.deposit? else none := by
  simp [deposit?, hSeat, hOutbox]

variable [RandomSource ρ]

/-- A slot of a session is filled by an event exactly if the event is to store that artifact. -/
theorem step?_slots {exchange after : Exchange ρ} {store : Mailbox.Store}
    (hServer : exchange.relay.server = .running store) {event : Event}
    (hStep : exchange.step? event = some after) :
    ∃ later, after.relay.server = .running later ∧ ∀ kind,
      (exchange.deposit? session event = some kind →
        ∃ payload, later.get? session kind = some payload) ∧
      (exchange.deposit? session event ≠ some kind → ∀ payload,
        later.get? session kind = some payload → store.get? session kind = some payload) := by
  -- Both the relay's turn at a seat and a message of an outsider are one message to the relay.
  have hDispatch : ∀ other (message : Message),
      ∃ later, (exchange.relay.dispatch exchange.source other message).relay.server =
          .running later ∧ ∀ kind,
        ((if other = session then message.tag.deposit? else none) = some kind →
          ∃ payload, later.get? session kind = some payload) ∧
        ((if other = session then message.tag.deposit? else none) ≠ some kind → ∀ payload,
          later.get? session kind = some payload → store.get? session kind = some payload) := by
    intro other message
    obtain ⟨later, hRelay, hSlots⟩ :=
      Relay.dispatch_slots hServer exchange.source other message
    refine ⟨later, by rw [hRelay], fun kind => ?_⟩
    rw [hSlots]
    by_cases hSession : other = session
    · simp only [hSession, if_true, Message.update]
      split
      · simp [*]
      · split <;> simp [*]
    · simp [hSession]
  cases event with
  | receive i =>
      obtain ⟨seat, message, inbox, -, -, rfl⟩ := receive?_eq_some hStep
      refine ⟨store, hServer, fun kind => ⟨fun hDeposit => ?_, fun _ _ => id⟩⟩
      cases hDeposit
  | serve i =>
      obtain ⟨seat, message, outbox, hSeat, hOutbox, rfl⟩ := serve?_eq_some hStep
      rw [deposit?_serve hSeat hOutbox]
      exact hDispatch seat.session message
  | outside other message =>
      cases hStep
      exact hDispatch other message

/-- What is stored in a session by some events, in the order in which it is. -/
def deposits (start : Exchange ρ) (session : SessionId) : List Event → List ArtifactKind
  | [] => []
  | event :: rest =>
      match start.step? event with
      | some next => (start.deposit? session event).toList ++ next.deposits session rest
      | none => []

/-- What is stored later comes after what was stored before. -/
theorem deposits_append {start exchange : Exchange ρ} {events : List Event}
    (h : start.follow? events = some exchange) (later : List Event) :
    start.deposits session (events ++ later) =
      start.deposits session events ++ exchange.deposits session later := by
  induction events generalizing start with
  | nil =>
      cases h
      rfl
  | cons event rest ih =>
      obtain ⟨next, hFirst, hRest⟩ := exists_of_follow?_cons h
      simp only [List.cons_append, deposits, hFirst, ih hRest, List.append_assoc]

/-- One more event stores at most one artifact. -/
theorem Runs.deposits {start exchange after : Exchange ρ} {events : List Event} {event : Event}
    (h : Runs session start events exchange) (last : exchange.step? event = some after) :
    start.deposits session (events ++ [event]) =
      start.deposits session events ++ (exchange.deposit? session event).toList := by
  rw [deposits_append h.follow?]
  simp only [Exchange.deposits, last, List.append_nil]

/-- Whether every kind of a list comes after all that it needs. -/
def InOrder (needs : ArtifactKind → List ArtifactKind) (kinds : List ArtifactKind) : Prop :=
  ∀ n kind, kinds[n]? = some kind → ∀ need ∈ needs kind, need ∈ kinds.take n

/-- A kind may be stored once all that it needs has been. -/
theorem InOrder.append {needs : ArtifactKind → List ArtifactKind} {kinds : List ArtifactKind}
    (h : InOrder needs kinds) {kind : ArtifactKind} (hNeeds : ∀ need ∈ needs kind, need ∈ kinds) :
    InOrder needs (kinds ++ [kind]) := by
  intro n other hAt
  rcases Nat.lt_or_ge n kinds.length with hLt | hGe
  · rw [List.getElem?_append_left hLt] at hAt
    rw [List.take_append_of_le_length (Nat.le_of_lt hLt)]
    exact h n other hAt
  · rw [List.getElem?_append_right hGe, List.getElem?_singleton] at hAt
    split at hAt
    · obtain rfl := Option.some.inj hAt
      obtain rfl : n = kinds.length := by omega
      rwa [List.take_left']
      rfl
    · cases hAt

/-- Whether all that the artifact of an errand needs has been handed over or fetched before. -/
def Errand.Supplied (needs : ArtifactKind → List ArtifactKind) (before : List Errand) :
    Errand → Prop
  | store kind => ∀ need ∈ needs kind,
      store need ∈ before ∨ fetch need ∈ before ∧ need ∈ sources need
  | _ => True

instance (needs : ArtifactKind → List ArtifactKind) (before : List Errand) (errand : Errand) :
    Decidable (errand.Supplied needs before) :=
  match errand with
  | .store kind => inferInstanceAs (Decidable (∀ need ∈ needs kind, _))
  | .greeting | .context | .fetch _ | .watch _ => inferInstanceAs (Decidable True)

/-- A course that does nothing twice, and hands nothing over without what that needs. -/
structure Orderly (needs : ArtifactKind → List ArtifactKind) (course : Course) : Prop where
  nodup : course.Nodup
  supplied : ∀ i (h : i < course.length), course[i].Supplied needs (course.take i)

instance (needs : ArtifactKind → List ArtifactKind) (course : Course) :
    Decidable (Orderly needs course) :=
  decidable_of_iff (course.Nodup ∧ ∀ i (h : i < course.length),
      course[i].Supplied needs (course.take i))
    ⟨fun ⟨h, h'⟩ => ⟨h, h'⟩, fun ⟨h, h'⟩ => ⟨h, h'⟩⟩

/-- Whether a party at this mark is about to hand an artifact over. -/
def Mark.Deposits (course : Course) (mark : Mark) (kind : ArtifactKind) : Prop :=
  ∃ i, mark = .asks i ∧ course[i]? = some (.store kind)

/-- What the relay answers is handed over when it takes it, and not before. -/
theorem Mark.Served.mem_take_iff {course : Course} {mark next : Mark} (h : mark.Served course next)
    (kind : ArtifactKind) :
    .store kind ∈ course.take (next.done course) ↔
      .store kind ∈ course.take (mark.done course) ∨ mark.Deposits course kind := by
  cases h with
  | leaves =>
      have hNone : ¬Mark.leaves.Deposits course kind := by
        rintro ⟨i, hMark, -⟩
        cases hMark
      simp only [Mark.done, hNone, or_false]
  | answered i succeeds accepted =>
      constructor
      · intro hMem
        cases succeeds with
        | false => exact .inl hMem
        | true =>
            rw [Mark.done, Bool.toNat_true, List.take_add_one, List.mem_append] at hMem
            exact hMem.imp id fun hAt => ⟨i, rfl, Option.mem_toList.mp hAt⟩
      · rintro (hMem | ⟨_, ⟨⟩, hAt⟩)
        · exact List.take_subset_take_left course (Nat.le_add_right _ _) hMem
        · obtain rfl := accepted kind hAt
          rw [Mark.done, Bool.toNat_true, List.take_add_one]
          exact List.mem_append_right _ (Option.mem_toList.mpr hAt)

/-- A mark moves past a store exactly when the relay takes it. -/
theorem Mark.Moves.mem_take_iff {course : Course} {i : Nat} {event : Event} {mark next : Mark}
    (h : mark.Moves course i event next) (kind : ArtifactKind) :
    .store kind ∈ course.take (next.done course) ↔
      .store kind ∈ course.take (mark.done course) ∨
        event = .serve i ∧ mark.Deposits course kind := by
  cases h with
  | stays _ _ serves => simp [serves]
  | heard h => simp [h.done]
  | served h => simp [h.mem_take_iff kind]

/-- What both parties have handed over has been stored, each artifact once and after all that it
needs. -/
structure Recorded (needs : ArtifactKind → List ArtifactKind) (own peer : Course)
    (mark mark' : Mark) (stored : List ArtifactKind) : Prop where
  mem_iff : ∀ kind, kind ∈ stored ↔ .store kind ∈ given own peer mark mark'
  nodup : stored.Nodup
  inOrder : InOrder needs stored

namespace Conduct

variable {D S L S' L' : Type} {own : Conduct D S L ρ} {peer : Conduct D S' L' ρ}
  {setting : Setting D} {d : D} {mark mark' next next' : Mark} {relay : Relay} {i j : Nat}
  {start exchange after : Exchange ρ} {needs : ArtifactKind → List ArtifactKind}
  [DecidableEq S] [ToString S] [DecidableEq S'] [ToString S']

omit [RandomSource ρ] [DecidableEq S'] [ToString S'] in
/-- What a participant is about to store is what its errand is. -/
theorem Fits.deposit?_iff (h : own.Fits peer setting) {seat : Seat ρ}
    (hSeat : own.Sits setting d mark seat) {message : Message} {outbox : List Message}
    (hOutbox : seat.outbox = message :: outbox) (kind : ArtifactKind) :
    message.tag.deposit? = some kind ↔ mark.Deposits own.course kind := by
  rcases hSeat.asks_or_leaves hOutbox with ⟨i, rfl⟩ | rfl
  · obtain ⟨s, _, policy, attempts, hPath, hMessage, -, rfl⟩ := hSeat
    cases hOutbox
    have hAt := getElem?_course hPath
    rw [Tag.deposit?_eq_some]
    constructor
    · rintro ⟨hTag, -⟩
      refine ⟨i, rfl, ?_⟩
      rw [hAt]
      cases hErrand : own.errand s with
      | store other =>
          rw [hErrand] at hMessage
          cases hMessage
          obtain rfl := Tag.send.inj hTag
          rfl
      | greeting | context | fetch | watch =>
          rw [hErrand] at hMessage
          cases hMessage
          all_goals cases hTag
    · rintro ⟨_, ⟨⟩, hStore⟩
      rw [hAt] at hStore
      rw [Option.some.inj hStore] at hMessage
      cases hMessage
      exact ⟨rfl, h.isStored (List.mem_of_getElem? (hAt.trans hStore))⟩
  · obtain ⟨machine, -, -, rfl⟩ := hSeat
    cases hOutbox
    constructor
    · intro hDeposit
      cases hDeposit
    · rintro ⟨_, ⟨⟩, -⟩

/-- Only the two parties store anything in their session, and they store what is next in their
courses. -/
theorem Partners.deposit?_iff (h : own.Partners peer setting)
    (hHolds : own.Holds peer setting d mark mark' i j exchange) {event : Event}
    (hHarmless : event.Harmless setting.session) (hStep : exchange.step? event = some after)
    (kind : ArtifactKind) :
    exchange.deposit? setting.session event = some kind ↔
      event = .serve i ∧ mark.Deposits own.course kind ∨
        event = .serve j ∧ mark'.Deposits peer.course kind := by
  cases event with
  | receive k => simp [deposit?]
  | serve k =>
      obtain ⟨sender, message, outbox, hSender, hOutbox, -⟩ := serve?_eq_some hStep
      rw [deposit?_serve hSender hOutbox]
      by_cases hi : k = i
      · subst hi
        have hSits := hHolds.sits hSender
        simp [hSits.session, h.fits.deposit?_iff hSits hOutbox, hHolds.apart]
      by_cases hj : k = j
      · subst hj
        have hSits := hHolds.sits' hSender
        simp [hSits.session, h.fits'.deposit?_iff hSits hOutbox, hi]
      · simp [hHolds.others k sender hSender hi hj, hi, hj]
  | outside other message =>
      rcases hHarmless with hOther | hReads
      · simp [deposit?, hOther.symm]
      · simp [deposit?, Tag.deposit?_of_writes hReads]

/-- What a party is about to hand over has not been handed over yet, and all that it needs has. -/
theorem Partners.deposits (h : own.Partners peer setting)
    (hShared : own.Shared peer setting d mark mark' relay) (hOrderly : Orderly needs own.course)
    {kind : ArtifactKind} (hDeposits : mark.Deposits own.course kind) :
    .store kind ∉ given own.course peer.course mark mark' ∧
      ∀ need ∈ needs kind, .store need ∈ given own.course peer.course mark mark' := by
  obtain ⟨n, rfl, hAt⟩ := hDeposits
  obtain ⟨hLt, hErrand⟩ := List.getElem?_eq_some_iff.mp hAt
  constructor
  · intro hMem
    rcases List.mem_append.mp hMem with hOwn | hPeer
    · obtain ⟨k, hk, hEarlier⟩ := List.getElem_of_mem hOwn
      rw [List.getElem_take, ← hErrand, hOrderly.nodup.getElem_inj_iff] at hEarlier
      rw [List.length_take, Mark.done] at hk
      omega
    · exact h.fits.not_store h.fits' h.roles (List.mem_of_getElem? hAt) (List.mem_of_mem_take hPeer)
  · intro need hNeed
    have hSupplied := hOrderly.supplied n hLt
    rw [hErrand] at hSupplied
    rcases hSupplied need hNeed with hStore | ⟨hFetch, hSource⟩
    · exact List.mem_append_left _ hStore
    · exact hShared.earned _ hFetch need hSource

/-- Every step of a run that stores something stores something new, after all that it needs. -/
theorem Partners.step_recorded (h : own.Partners peer setting)
    (hOrderly : Orderly needs own.course) (hOrderly' : Orderly needs peer.course)
    (hHolds : own.Holds peer setting d mark mark' i j exchange) {event : Event}
    (hHarmless : event.Harmless setting.session) (hStep : exchange.step? event = some after)
    (hMoves : mark.Moves own.course i event next) (hMoves' : mark'.Moves peer.course j event next')
    {stored : List ArtifactKind}
    (hRecorded : Recorded needs own.course peer.course mark mark' stored) :
    Recorded needs own.course peer.course next next'
      (stored ++ (exchange.deposit? setting.session event).toList) := by
  have hIff := h.deposit?_iff hHolds hHarmless hStep
  have hGiven : ∀ kind, .store kind ∈ given own.course peer.course next next' ↔
      .store kind ∈ given own.course peer.course mark mark' ∨
        exchange.deposit? setting.session event = some kind := by
    intro kind
    rw [hIff, given, given, List.mem_append, List.mem_append, hMoves.mem_take_iff,
      hMoves'.mem_take_iff, or_or_or_comm]
  have hFresh : ∀ kind, exchange.deposit? setting.session event = some kind →
      kind ∉ stored ∧ ∀ need ∈ needs kind, need ∈ stored := by
    intro kind hDeposit
    have hNew : .store kind ∉ given own.course peer.course mark mark' ∧
        ∀ need ∈ needs kind, .store need ∈ given own.course peer.course mark mark' := by
      rcases (hIff kind).mp hDeposit with ⟨-, hDeposits⟩ | ⟨-, hDeposits⟩
      · exact h.deposits hHolds.shared hOrderly hDeposits
      · simpa only [mem_given_comm peer.course own.course] using
          h.symm.deposits hHolds.shared.symm hOrderly' hDeposits
    simpa only [← hRecorded.mem_iff] using hNew
  cases hDeposit : exchange.deposit? setting.session event with
  | none =>
      simp only [hDeposit, reduceCtorEq, or_false] at hGiven
      rw [Option.toList_none, List.append_nil]
      exact ⟨fun kind => (hRecorded.mem_iff kind).trans (hGiven kind).symm, hRecorded.nodup,
        hRecorded.inOrder⟩
  | some kind =>
      obtain ⟨hNew, hNeeds⟩ := hFresh kind hDeposit
      rw [Option.toList_some]
      constructor
      case mem_iff =>
        intro other
        rw [hGiven, hDeposit, List.mem_append, List.mem_singleton, hRecorded.mem_iff,
          Option.some.injEq, eq_comm (a := kind)]
      case nodup =>
        rw [List.nodup_append]
        simpa [hRecorded.nodup] using fun other hMem (hSame : other = kind) => hNew (hSame ▸ hMem)
      case inOrder => exact hRecorded.inOrder.append hNeeds

/-- In the course of a run of two parties each artifact is stored once at most, and after all that
it needs. -/
theorem Partners.runs_recorded (h : own.Partners peer setting)
    (hOrderly : Orderly needs own.course) (hOrderly' : Orderly needs peer.course)
    (hStart : own.Holds peer setting d mark mark' i j start)
    (hNone : ∀ kind, .store kind ∉ given own.course peer.course mark mark') {events : List Event}
    (hRuns : Runs setting.session start events exchange) :
    ∃ d' next next', own.Holds peer setting d' next next' i j exchange ∧
      Recorded needs own.course peer.course next next' (start.deposits setting.session events) := by
  induction hRuns with
  | refl =>
      refine ⟨d, mark, mark', hStart, ⟨fun kind => ?_, .nil, ?_⟩⟩
      · simpa [Exchange.deposits] using hNone kind
      · intro n kind hAt
        cases hAt
  | step earlier harmless last ih =>
      obtain ⟨d', next, next', hHolds, hRecorded⟩ := ih
      obtain ⟨later, nextMark, nextMark', hMoves, hMoves', hHolds'⟩ := h.step hHolds harmless last
      refine ⟨later, nextMark, nextMark', hHolds', ?_⟩
      rw [earlier.deposits last]
      exact h.step_recorded hOrderly hOrderly' hHolds harmless last hMoves hMoves' hRecorded

omit [DecidableEq S] [ToString S] [DecidableEq S'] [ToString S'] in
/-- As long as something that an answer is made from has not been handed over, every request for it
is answered that it is not there. -/
theorem Shared.nacks (h : own.Shared peer setting d mark mark' relay) {kind slot : ArtifactKind}
    (hKind : kind ≠ .cryptoContext) (hSlot : slot ∈ sources kind)
    (hNone : .store slot ∉ given own.course peer.course mark mark') {message : Message}
    (hTag : message.tag = .request kind) (source : ρ) :
    (relay.dispatch source setting.session message).response =
      .handled (some (.bare (.nack kind))) := by
  obtain ⟨store, hServer, -⟩ := h.slots
  have hEmpty : store.get? setting.session slot = none :=
    ((h.slot_cases hServer slot).resolve_left fun hPresent => hNone hPresent.1.mem_given).2
  rw [Relay.dispatch_request hTag]
  by_cases hStored : kind.isStored
  · rw [sources_of_isStored hStored, List.mem_singleton] at hSlot
    rw [Relay.dispatch_fetch hServer hStored, ← hSlot, hEmpty]
    rfl
  · cases kind with
    | cryptoContext => exact absurd rfl hKind
    | reEncryptionKey =>
        rw [Relay.dispatch_underivable hServer]
        simp only [sources, List.mem_cons, List.not_mem_nil, or_false] at hSlot
        rcases hSlot with rfl | rfl
        · exact .inl hEmpty
        · exact .inr hEmpty
    | _ => exact absurd rfl hStored

end Conduct

end CipherRelay.Exchange
