import CipherRelay.Proofs.Mailbox.Turns
import Mathlib.Data.List.Perm.Subperm
/-!
The mailbox server is as good as the mailbox. However many callers there are and however they take
turns with the server, each call has one answer. Up to the first shutdown the answers are those of
one mailbox that is given the requests one after another, and from then on they say that the server
is gone. No call waits for ever: an event that brings it nearer to its answer is always possible,
and no event takes it farther away.
-/
namespace CipherRelay.Mailbox.Desk

/-- What a caller is doing. -/
def phase (desk : Desk) (i : Nat) : Phase :=
  (desk.callers[i]?.map (·.phase)).getD .idle

/-- The event that a call under way waits for. -/
def turn (desk : Desk) (i : Nat) : Event :=
  match desk.phase i with
  | .sending _ => .send i
  | .waiting _ =>
      if desk.server ≠ .stopped then .execute else if desk.isOpen then .close else .drop
  | .told _ _ | .idle => .hear i

/-- How far a call under way is from its end. A request that has been sent is behind those before
it in the queue, and one step farther as long as a server that has shut down may still have to
leave. -/
def distance (desk : Desk) (i : Nat) : Nat :=
  match desk.phase i with
  | .idle => 0
  | .told _ _ => 1
  | .waiting _ => desk.queue.idxOf i + if desk.isOpen then 3 else 2
  | .sending _ => desk.callers.length + 4

variable {desk later : Desk} {event : Event} {i : Nat}

theorem phase_of_found {caller : Caller} (hCaller : desk.callers[i]? = some caller) :
    desk.phase i = caller.phase := by
  rw [phase, hCaller]
  rfl

theorem phase_setCaller_self {caller : Caller} (hCaller : desk.callers[i]? = some caller)
    (new : Caller) : (desk.setCaller i new).phase i = new.phase := by
  have hLt := (List.getElem?_eq_some_iff.mp hCaller).1
  exact phase_of_found (List.getElem?_set_self hLt)

/-- A change of one caller leaves the others in their phases. -/
theorem phase_setCaller_ne {k : Nat} (hNe : i ≠ k) (new : Caller) :
    (desk.setCaller k new).phase i = desk.phase i := by
  rw [phase, setCaller, List.getElem?_set_ne hNe.symm]
  rfl

@[simp]
theorem length_setCaller (desk : Desk) (k : Nat) (new : Caller) :
    (desk.setCaller k new).callers.length = desk.callers.length :=
  List.length_set

theorem distance_told {request : Request} {reply : Option Reply}
    (h : desk.phase i = .told request reply) : desk.distance i = 1 := by
  rw [distance, h]

/-- A caller that waits is the farther away the more requests stand in front of its own. -/
theorem distance_waiting {request : Request} (h : desk.phase i = .waiting request) :
    desk.distance i = desk.queue.idxOf i + if desk.isOpen then 3 else 2 := by
  rw [distance, h]

/-- A caller that is about to send is farther away than any that waits. -/
theorem distance_sending {request : Request} (h : desk.phase i = .sending request) :
    desk.distance i = desk.callers.length + 4 := by
  rw [distance, h]

theorem waits_of_phase {request : Request} (h : desk.phase i = .waiting request) :
    desk.Waits i := by
  rw [phase] at h
  cases hCaller : desk.callers[i]? with
  | none =>
      rw [hCaller] at h
      cases h
  | some caller =>
      rw [hCaller] at h
      exact ⟨caller, request, hCaller, h⟩

theorem exists_of_phase (h : desk.phase i ≠ .idle) :
    ∃ caller, desk.callers[i]? = some caller ∧ caller.phase = desk.phase i := by
  cases hCaller : desk.callers[i]? with
  | none =>
      rw [phase, hCaller] at h
      exact absurd rfl h
  | some caller => exact ⟨caller, rfl, (phase_of_found hCaller).symm⟩

/-- A call under way has only its turn to wait for. -/
theorem Queued.turn_isSome (h : desk.Queued) (hPhase : desk.phase i ≠ .idle) :
    (desk.step? (desk.turn i)).isSome := by
  obtain ⟨caller, hCaller, hSame⟩ := exists_of_phase hPhase
  cases hNow : desk.phase i with
  | idle => exact absurd hNow hPhase
  | told request reply => simp [turn, hNow, step?, hear?, hCaller, hSame]
  | sending request =>
      simp only [turn, hNow, step?, send?, hCaller, hSame, Option.bind_eq_bind, Option.bind_some]
      split <;> rfl
  | waiting request =>
      have hMem : i ∈ desk.queue := (h.mem_iff i).mpr (waits_of_phase hNow)
      obtain ⟨k, queue, hQueue⟩ := List.exists_cons_of_ne_nil (List.ne_nil_of_mem hMem)
      have hFirst : k ∈ desk.queue := hQueue ▸ List.mem_cons_self
      obtain ⟨first, own, hFound, hWaiting⟩ := (h.mem_iff k).mp hFirst
      cases hServer : desk.server with
      | running store =>
          simp [turn, hNow, hServer, step?, execute?, hQueue, hFound, hWaiting]
      | stopped =>
          by_cases hOpen : desk.isOpen = true
          · simp [turn, hNow, hServer, hOpen, step?, close?]
          · simp [turn, hNow, hServer, hOpen, step?, drop?, hQueue, hFound, hWaiting]

/-- The queue has no more entries than there are callers. -/
theorem Queued.length_le (h : desk.Queued) : desk.queue.length ≤ desk.callers.length := by
  have hSubset : desk.queue ⊆ List.range desk.callers.length := by
    intro i hMem
    obtain ⟨caller, request, hCaller, -⟩ := (h.mem_iff i).mp hMem
    exact List.mem_range.mpr (List.getElem?_eq_some_iff.mp hCaller).1
  simpa using (List.subperm_of_subset h.nodup hSubset).length_le

/-- Whether a call is no nearer to its end than before. -/
structure Stays (i : Nat) (desk later : Desk) : Prop where
  phase : later.phase i = desk.phase i
  distance : later.distance i = desk.distance i
  turn : later.turn i = desk.turn i

/-- Who does not wait cares for nothing but its own phase. -/
theorem Stays.of_phase (hPhase : later.phase i = desk.phase i)
    (hLength : later.callers.length = desk.callers.length)
    (hWaiting : ∀ request, desk.phase i = .waiting request →
      later.queue.idxOf i = desk.queue.idxOf i ∧ later.isOpen = desk.isOpen ∧
        later.server = desk.server) : Stays i desk later where
  phase := hPhase
  distance := by
    cases hNow : desk.phase i with
    | waiting request =>
        obtain ⟨hPlace, hOpen, -⟩ := hWaiting request hNow
        simp [Desk.distance, hPhase, hNow, hPlace, hOpen]
    | _ => simp [Desk.distance, hPhase, hNow, hLength]
  turn := by
    cases hNow : desk.phase i with
    | waiting request =>
        obtain ⟨-, hOpen, hServer⟩ := hWaiting request hNow
        simp [Desk.turn, hPhase, hNow, hOpen, hServer]
    | _ => simp [Desk.turn, hPhase, hNow]

/-- The request that is first in the queue is taken: its caller is told, and those behind move
up. -/
theorem nearer_of_told {k : Nat} {queue : List Nat} {caller : Caller} {request : Request}
    {reply : Option Reply} (hNext : desk.queue = k :: queue)
    (hFound : desk.callers[k]? = some caller) (hWaiting : caller.phase = .waiting request)
    (hCallers : later.callers =
      (desk.setCaller k { caller with phase := .told request reply }).callers)
    (hQueue : later.queue = queue) (hOpen : later.isOpen = desk.isOpen) :
    later.distance i < desk.distance i ∨
      (∀ request, desk.phase i ≠ .waiting request) ∧ Stays i desk later := by
  have hPhase : later.phase i =
      (desk.setCaller k { caller with phase := .told request reply }).phase i := by
    rw [phase, hCallers, ← phase]
  by_cases hi : i = k
  · subst hi
    have hBefore : desk.phase i = .waiting request := (phase_of_found hFound).trans hWaiting
    rw [phase_setCaller_self hFound] at hPhase
    left
    rw [distance_told hPhase, distance_waiting hBefore]
    split <;> omega
  · rw [phase_setCaller_ne hi] at hPhase
    cases hNow : desk.phase i with
    | waiting own =>
        left
        rw [hNow] at hPhase
        rw [distance_waiting hPhase, distance_waiting hNow, hNext, hQueue, hOpen,
          List.idxOf_cons_ne _ (Ne.symm hi)]
        omega
    | _ =>
        right
        refine ⟨by simp, .of_phase hPhase (by simp [hCallers]) ?_⟩
        simp [hNow]

/-- The turn of a caller that does not wait is its own and not the server's. -/
theorem turn_ne_of_not_waiting (h : ∀ request, desk.phase i ≠ .waiting request) :
    desk.turn i ≠ .execute ∧ desk.turn i ≠ .close ∧ desk.turn i ≠ .drop := by
  cases hNow : desk.phase i with
  | waiting request => exact absurd hNow (h request)
  | _ => simp [turn, hNow]

/-- An event of another caller is not a call's turn. -/
theorem turn_ne_of_ne {k : Nat} (hNe : i ≠ k) :
    desk.turn i ≠ .send k ∧ desk.turn i ≠ .hear k := by
  cases hNow : desk.phase i with
  | waiting request =>
      simp only [turn, hNow]
      split
      · simp
      · split <;> simp
  | _ => simp [turn, hNow, hNe]

/-- No turn begins another call. -/
theorem turn_ne_call (k : Nat) (request : Request) : desk.turn i ≠ .call k request := by
  rw [turn]
  split
  · simp
  · split
    · simp
    · split <;> simp
  all_goals simp

/-- An event brings a call under way nearer to its end, or it was not its turn. -/
theorem Queued.nearer (h : desk.Queued) (hStep : desk.step? event = some later)
    (hPhase : desk.phase i ≠ .idle) :
    later.distance i < desk.distance i ∨ event ≠ desk.turn i ∧ Stays i desk later := by
  cases step_of_step? hStep with
  | @call k request caller found idle =>
      have hNe : i ≠ k := by
        rintro rfl
        exact hPhase ((phase_of_found found).trans idle)
      refine .inr ⟨(turn_ne_call k request).symm, ?_⟩
      exact .of_phase (phase_setCaller_ne hNe _) (length_setCaller _ _ _)
        fun _ _ => ⟨rfl, rfl, rfl⟩
  | @send k request caller found sending isOpen =>
      by_cases hi : i = k
      · subst hi
        have hBefore : desk.phase i = .sending request := (phase_of_found found).trans sending
        have hPlace : (desk.queue ++ [i]).idxOf i < (desk.queue ++ [i]).length :=
          List.idxOf_lt_length_of_mem (List.mem_append_right _ (List.mem_singleton_self i))
        have hLength := h.length_le
        left
        rw [distance_sending hBefore, distance_waiting (phase_setCaller_self found _)]
        simp only [List.length_append, List.length_singleton] at hPlace
        dsimp only
        split <;> omega
      · refine .inr ⟨(turn_ne_of_ne hi).1.symm, ?_⟩
        refine .of_phase (phase_setCaller_ne hi _) (length_setCaller _ _ _) ?_
        intro own hWaiting
        have hMem : i ∈ desk.queue := (h.mem_iff i).mpr (waits_of_phase hWaiting)
        exact ⟨List.idxOf_append_of_mem hMem, rfl, rfl⟩
  | @bounce k request caller found sending closed =>
      by_cases hi : i = k
      · subst hi
        have hBefore : desk.phase i = .sending request := (phase_of_found found).trans sending
        left
        rw [distance_sending hBefore, distance_told (phase_setCaller_self found _)]
        omega
      · refine .inr ⟨(turn_ne_of_ne hi).1.symm, ?_⟩
        exact .of_phase (phase_setCaller_ne hi _) (length_setCaller _ _ _)
          fun _ _ => ⟨rfl, rfl, rfl⟩
  | execute running next found waiting =>
      refine Or.imp_right ?_ (nearer_of_told next found waiting rfl rfl rfl)
      rintro ⟨hNot, hStays⟩
      exact ⟨(turn_ne_of_not_waiting hNot).1.symm, hStays⟩
  | close stopped isOpen =>
      by_cases hWaiting : ∃ request, desk.phase i = .waiting request
      · obtain ⟨request, hWaiting⟩ := hWaiting
        have hAfter : phase { desk with isOpen := false } i = .waiting request := hWaiting
        left
        rw [distance_waiting hWaiting, distance_waiting hAfter]
        simp [isOpen]
      · rw [not_exists] at hWaiting
        refine .inr ⟨(turn_ne_of_not_waiting hWaiting).2.1.symm, ?_⟩
        exact .of_phase rfl rfl fun request hNow => absurd hNow (hWaiting request)
  | drop next found waiting closed =>
      refine Or.imp_right ?_ (nearer_of_told next found waiting rfl rfl rfl)
      rintro ⟨hNot, hStays⟩
      exact ⟨(turn_ne_of_not_waiting hNot).2.2.symm, hStays⟩
  | @hear k request reply caller found told =>
      by_cases hi : i = k
      · subst hi
        have hBefore : desk.phase i = .told request reply := (phase_of_found found).trans told
        left
        rw [distance_told hBefore, distance, phase_setCaller_self found]
        exact Nat.one_pos
      · refine .inr ⟨(turn_ne_of_ne hi).2.symm, ?_⟩
        exact .of_phase (phase_setCaller_ne hi _) (length_setCaller _ _ _)
          fun _ _ => ⟨rfl, rfl, rfl⟩

/-- A course of events without end. At some times nothing may happen. -/
structure Course (desk : Desk) where
  desks : Nat → Desk
  events : Nat → Option Event
  starts : desks 0 = desk
  goesOn : ∀ n, (events n).elim (some (desks n)) (desks n).step? = some (desks (n + 1))

/-- Whether an event that stays possible comes to happen. Nobody has to start a call. -/
def Course.Fair (course : Course desk) : Prop :=
  ∀ event, (∀ i request, event ≠ .call i request) →
    ∀ n, (∀ m, n ≤ m → ((course.desks m).step? event).isSome) →
      ∃ m, n ≤ m ∧ course.events m = some event

namespace Course

variable {course : Course desk}

/-- The queue is in order all along a course. -/
theorem queued (h : desk.Queued) (course : Course desk) (n : Nat) : (course.desks n).Queued := by
  induction n with
  | zero =>
      rw [course.starts]
      exact h
  | succ n ih =>
      have hNext := course.goesOn n
      cases hEvent : course.events n with
      | none =>
          rw [hEvent] at hNext
          exact Option.some.inj hNext ▸ ih
      | some event =>
          rw [hEvent] at hNext
          exact ih.step hNext

/-- At any time a call under way comes nearer to its end, or nothing changes for it and its turn has
not come. -/
theorem nearer (h : desk.Queued) (course : Course desk) (n : Nat)
    (hPhase : (course.desks n).phase i ≠ .idle) :
    (course.desks (n + 1)).distance i < (course.desks n).distance i ∨
      course.events n ≠ some ((course.desks n).turn i) ∧
        Stays i (course.desks n) (course.desks (n + 1)) := by
  have hNext := course.goesOn n
  cases hEvent : course.events n with
  | none =>
      rw [hEvent] at hNext
      rw [← Option.some.inj hNext]
      exact .inr ⟨by simp, rfl, rfl, rfl⟩
  | some event =>
      rw [hEvent] at hNext
      simpa using (course.queued h n).nearer hNext hPhase

/-- Where events that stay possible come to happen, every call comes to its end. -/
theorem Fair.exists_idle (hFair : course.Fair) (h : desk.Queued) (i n : Nat) :
    ∃ m, n ≤ m ∧ (course.desks m).phase i = .idle := by
  -- By induction on the distance; while it stays the same, the call's turn stays possible.
  induction hDistance : (course.desks n).distance i using Nat.strongRecOn generalizing n with
  | _ distance ih =>
      subst hDistance
      by_cases hPhase : (course.desks n).phase i = .idle
      · exact ⟨n, Nat.le_refl n, hPhase⟩
      by_cases hLower : ∃ m, n ≤ m ∧
          (course.desks m).distance i < (course.desks n).distance i
      · obtain ⟨m, hLe, hLower⟩ := hLower
        obtain ⟨last, hLast, hIdle⟩ := ih _ hLower m rfl
        exact ⟨last, Nat.le_trans hLe hLast, hIdle⟩
      exfalso
      have hNever : ∀ m, n ≤ m →
          ¬(course.desks m).distance i < (course.desks n).distance i := by
        intro m hLe hLess
        exact hLower ⟨m, hLe, hLess⟩
      have hStays : ∀ m, n ≤ m → Stays i (course.desks n) (course.desks m) := by
        intro m hLe
        obtain ⟨k, rfl⟩ := Nat.exists_eq_add_of_le hLe
        clear hLe
        induction k with
        | zero => exact ⟨rfl, rfl, rfl⟩
        | succ k hSoFar =>
            rcases course.nearer h (n + k) (hSoFar.phase ▸ hPhase) with hLess | ⟨-, hStays⟩
            · exact absurd (hSoFar.distance ▸ hLess) (hNever (n + (k + 1)) (by omega))
            · exact ⟨hStays.phase.trans hSoFar.phase, hStays.distance.trans hSoFar.distance,
                hStays.turn.trans hSoFar.turn⟩
      have hPossible : ∀ m, n ≤ m →
          ((course.desks m).step? ((course.desks n).turn i)).isSome := by
        intro m hLe
        have hNow := hStays m hLe
        rw [← hNow.turn]
        exact (course.queued h m).turn_isSome (hNow.phase ▸ hPhase)
      obtain ⟨m, hLe, hHappens⟩ := hFair _ turn_ne_call n hPossible
      have hNow := hStays m hLe
      rcases course.nearer h m (hNow.phase ▸ hPhase) with hLess | ⟨hNot, -⟩
      · exact hNever (m + 1) (by omega) (hNow.distance ▸ hLess)
      · exact hNot (hHappens.trans (congrArg some hNow.turn.symm))

end Course

/-- What holds of callers and their server at any time. -/
structure Refines (events : List Event) (desk : Desk) : Prop where
  /-- A server that has executed no shutdown has the mailbox that the requests it has executed
  make one after another. Otherwise it has stopped, and the shutdown was the last that it has
  executed. -/
  server : (∀ entry ∈ desk.log, entry.2 ≠ .shutdown) ∧
      desk.server = .running (Store.empty.afterAll desk.log) ∨
    (∃ i before, desk.log = before ++ [(i, .shutdown)] ∧
      ∀ entry ∈ before, entry.2 ≠ .shutdown) ∧ desk.server = .stopped
  /-- What a caller has read, and what is there for it to be read, are the answers of one mailbox to
  its requests in the order in which the server has executed the requests of all callers. Behind
  them it is told that the server is gone, once for each request that has not been executed; this
  happens only after a shutdown. -/
  answers : ∀ i (caller : Caller), desk.callers[i]? = some caller →
    ∃ refused, (refused ≠ [] → desk.server = .stopped) ∧
      Store.empty.answers i desk.log ++ refused.map (fun request => (request, request.refusal)) =
        caller.answers ++ caller.owed?.toList ∧
      calls i events =
        (Store.empty.answers i desk.log).map (·.1) ++ refused ++ caller.unserved?.toList
  /-- Every call has one answer, in the order of the calls, but for the call that is under way. -/
  calls : ∀ i (caller : Caller), desk.callers[i]? = some caller →
    calls i events = caller.answers.map (·.1) ++ caller.request?.toList
  /-- No answer is of another kind than its request. -/
  understood : ∀ (i : Nat) (caller : Caller), desk.callers[i]? = some caller →
    ∀ entry ∈ caller.answers, entry.2.error? ≠ some .unexpectedResponse
  /-- A shutdown that is executed succeeds. -/
  shutdown : ∀ (i : Nat) (caller : Caller), desk.callers[i]? = some caller →
    (i, .shutdown) ∈ desk.log →
      (.shutdown, .shutdown (.ok ())) ∈ caller.answers ++ caller.owed?.toList
  /-- While a call is under way, the event that it waits for is possible. -/
  proceeds : ∀ i, desk.phase i ≠ .idle → (desk.step? (desk.turn i)).isSome
  /-- However things go on, every call under way comes to its end, if only what stays possible comes
  to happen. -/
  ends : ∀ course : Course desk, course.Fair → ∀ i n, ∃ m, n ≤ m ∧
    (course.desks m).phase i = .idle

/-- However many callers there are and however they and the server take turns, the server is as good
as the mailbox. -/
theorem refines_of_follow (count : Nat) {events : List Event}
    (h : (start count).follow? events = some desk) : Refines events desk := by
  have hOrdered : desk.Ordered events :=
    follow_induction h (ordered_start count) fun _ _ _ _ => Ordered.step
  have hQueued : desk.Queued := follow_induction (P := fun _ => Queued) h (queued_start count)
    fun _ _ _ _ => Queued.step
  constructor
  case server => exact hOrdered.server
  case answers =>
    intro i caller hCaller
    obtain ⟨refused, hRefused, hAgrees⟩ := hOrdered.callers i caller hCaller
    refine ⟨refused, fun hSome => ?_, hAgrees.answers, hAgrees.calls⟩
    apply hOrdered.closed
    by_contra hOpen
    exact hSome (hRefused (Bool.not_eq_false _ ▸ hOpen))
  case calls =>
    intro i caller hCaller
    obtain ⟨refused, -, hAgrees⟩ := hOrdered.callers i caller hCaller
    exact hAgrees.calls_eq
  case understood =>
    intro i caller hCaller entry hMem
    obtain ⟨refused, -, hAgrees⟩ := hOrdered.callers i caller hCaller
    exact hAgrees.error? hMem
  case shutdown =>
    intro i caller hCaller hLog
    obtain ⟨refused, -, hAgrees⟩ := hOrdered.callers i caller hCaller
    rw [← hAgrees.answers]
    exact List.mem_append_left _ (Store.mem_answers_shutdown hLog)
  case proceeds => exact fun i hPhase => hQueued.turn_isSome hPhase
  case ends => exact fun course hFair i n => hFair.exists_idle hQueued i n

/-- Three callers at once. A key is asked for before it is stored, and an artifact is stored that
cannot be. One request is behind a shutdown in the queue, another one is sent while the server is
about to leave, and a last one when it has left. -/
def rush : List Event :=
  let session : SessionId := ⟨List.replicate 32 5, rfl⟩
  [.call 0 (.store session .publicKey [7]), .call 1 (.fetch session .publicKey), .send 1, .send 0,
    .execute, .execute, .hear 0, .hear 1, .call 0 (.store session .cryptoContext [1]), .send 0,
    .call 2 .shutdown, .send 2, .call 1 (.fetch session .publicKey), .send 1, .execute, .execute,
    .hear 0, .call 0 (.clearRole session .producer), .send 0, .close, .drop, .drop, .hear 2,
    .call 2 .shutdown, .send 2, .hear 0, .hear 1, .hear 2]

theorem rush_heard :
    ((start 3).follow? rush).map
        (fun desk => desk.callers.map fun caller => caller.answers.map (·.2.error?)) =
      some [[none, some (.notStorable .cryptoContext), some .storeShutdown],
        [some (.artifactNotReady .publicKey), some .storeShutdown],
        [none, some .storeShutdown]] := by
  decide +kernel

/-- The callers of the rush are answered by one store, in some order. -/
theorem refines_of_rush : ∃ desk, (start 3).follow? rush = some desk ∧ Refines rush desk := by
  obtain ⟨desk, hFollow, -⟩ := Option.map_eq_some_iff.mp rush_heard
  exact ⟨desk, hFollow, refines_of_follow 3 hFollow⟩

end CipherRelay.Mailbox.Desk
