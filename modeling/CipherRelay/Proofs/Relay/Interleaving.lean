import CipherRelay.Proofs.Relay.Sequence
/-!
Messages of several connections at once. The server executes one request at a time, and a message
costs one request at most, so all of them can be put in one order: that of the requests. What each
connection has done and has yet to do agrees with the messages being handled in that order, one
after another. The requests that wait are in the server's queue, so no connection gets stuck.
-/
namespace CipherRelay.Relay

variable {ρ : Type}

/-- The message whose request the server has not executed yet. -/
def Line.waiting? (line : Line ρ) : Option (Call ρ) :=
  match line.phase with
  | .asking call _ _ => some call
  | .idle | .answered _ _ _ | .closed => none

/-- The messages that a connection takes in the course of some events. -/
def taken (i : Nat) (events : List (Traffic.Event ρ)) : List (Call ρ) :=
  events.filterMap fun event =>
    match event with
    | .take call => if call.line = i then some call else none
    | .execute | .finish _ => none

variable [RandomSource ρ]

/-- The response that a connection is about to give, because the server has answered. -/
def Line.owed? (cc : Scheme.Context) (line : Line ρ) : Option (Call ρ × Response) :=
  match line.phase with
  | .answered call handler answer =>
      some (call, conclusion cc handler call.envelope.message answer call.source)
  | .idle | .asking _ _ _ | .closed => none

namespace Traffic

/-- What an event does. -/
inductive Step (traffic : Traffic ρ) : Event ρ → Traffic ρ → Prop
  | settled {call : Call ρ} {line : Line ρ} {response : Response}
      (found : traffic.lines[call.line]? = some line) (idle : line.phase = .idle)
      (begins : opening traffic.relay.context call.envelope.session call.envelope.message =
        .settled response) :
      Step traffic (.take call) { traffic.setLine call.line (line.respond call response) with
        log := traffic.log ++ [call] }
  | asks {call : Call ρ} {line : Line ρ} {handler : Handler} {request : Mailbox.Request}
      (found : traffic.lines[call.line]? = some line) (idle : line.phase = .idle)
      (begins : opening traffic.relay.context call.envelope.session call.envelope.message =
        .asks handler request) :
      Step traffic (.take call)
        { traffic.setLine call.line { line with phase := .asking call handler request } with
          queue := traffic.queue ++ [call.line] }
  | execute {i : Nat} {queue : List Nat} {call : Call ρ} {line : Line ρ} {handler : Handler}
      {request : Mailbox.Request} (next : traffic.queue = i :: queue)
      (found : traffic.lines[i]? = some line) (asking : line.phase = .asking call handler request) :
      Step traffic .execute
        { traffic.setLine i { line with
              phase := .answered call handler (traffic.relay.server.execute request).1 } with
          relay := { traffic.relay with server := (traffic.relay.server.execute request).2 }
          queue := queue
          log := traffic.log ++ [call] }
  | finish {i : Nat} {call : Call ρ} {line : Line ρ} {handler : Handler}
      {answer : Option Mailbox.Reply} (found : traffic.lines[i]? = some line)
      (answered : line.phase = .answered call handler answer) :
      Step traffic (.finish i) (traffic.setLine i (line.respond call
        (conclusion traffic.relay.context handler call.envelope.message answer call.source)))

/-- Each event that the traffic allows is one of the ways in which it goes on. -/
theorem step_of_step? {traffic after : Traffic ρ} {event : Event ρ}
    (h : traffic.step? event = some after) : traffic.Step event after := by
  cases event with
  | take call =>
      simp only [step?, take?, Option.bind_eq_bind, Option.bind_eq_some_iff] at h
      obtain ⟨line, hLine, h⟩ := h
      cases hPhase : line.phase with
      | idle =>
          simp only [hPhase] at h
          cases hOpening : opening traffic.relay.context call.envelope.session
            call.envelope.message with
          | settled response =>
              simp only [hOpening, Option.pure_def, Option.some.injEq] at h
              exact h ▸ .settled hLine hPhase hOpening
          | asks handler request =>
              simp only [hOpening, Option.pure_def, Option.some.injEq] at h
              exact h ▸ .asks hLine hPhase hOpening
      | _ => simp [hPhase] at h
  | execute =>
      simp only [step?, execute?, Option.bind_eq_bind] at h
      cases hQueue : traffic.queue with
      | nil => simp [hQueue] at h
      | cons i queue =>
          simp only [hQueue, Option.bind_eq_some_iff] at h
          obtain ⟨line, hLine, h⟩ := h
          cases hPhase : line.phase with
          | asking call handler request =>
              simp only [hPhase, Option.pure_def, Option.some.injEq] at h
              exact h ▸ .execute hQueue hLine hPhase
          | _ => simp [hPhase] at h
  | finish i =>
      simp only [step?, finish?, Option.bind_eq_bind, Option.bind_eq_some_iff] at h
      obtain ⟨line, hLine, h⟩ := h
      cases hPhase : line.phase with
      | answered call handler answer =>
          simp only [hPhase, Option.pure_def, Option.some.injEq] at h
          exact h ▸ .finish hLine hPhase
      | _ => simp [hPhase] at h

/-- What holds at first and is kept by every event holds after any events. -/
theorem follow_induction {P : List (Event ρ) → Traffic ρ → Prop} {start traffic : Traffic ρ}
    {events : List (Event ρ)} (hFollow : start.follow? events = some traffic) (hStart : P [] start)
    (hStep : ∀ events earlier event later, P events earlier →
      earlier.step? event = some later → P (events ++ [event]) later) : P events traffic := by
  -- By induction on the events, the last one split off.
  induction events using List.reverseRecOn generalizing traffic with
  | nil =>
      cases hFollow
      exact hStart
  | append_singleton events event ih =>
      rw [follow?, List.foldlM_append] at hFollow
      obtain ⟨earlier, hEarlier, hLast⟩ := Option.bind_eq_some_iff.mp hFollow
      rw [List.foldlM_cons] at hLast
      obtain ⟨last, hLast, hEnd⟩ := Option.bind_eq_some_iff.mp hLast
      cases hEnd
      exact hStep _ _ _ _ (ih hEarlier) hLast

omit [RandomSource ρ] in
/-- A line that is found after a change is the changed one or was there before. -/
theorem setLine_cases {traffic : Traffic ρ} {i k : Nat} {line new : Line ρ}
    (h : (traffic.setLine k new).lines[i]? = some line) :
    i = k ∧ line = new ∨ i ≠ k ∧ traffic.lines[i]? = some line := by
  rw [setLine, List.getElem?_set] at h
  split at h
  · split at h
    · exact .inl ⟨by omega, (Option.some.inj h).symm⟩
    · cases h
  · exact .inr ⟨by omega, h⟩

end Traffic

/-- What a connection has done, is doing and has yet to do, compared to one order of the messages of
all connections. -/
structure Line.Agrees (relay : Relay) (i : Nat) (log taken : List (Call ρ)) (line : Line ρ) :
    Prop where
  responses : (relay.responses log).filter (fun entry => entry.1.line = i) =
    line.responses ++ (line.owed? relay.context).toList
  taken : taken = log.filter (fun call => call.line = i) ++ line.waiting?.toList
  asking : ∀ call handler request, line.phase = .asking call handler request → call.line = i ∧
    opening relay.context call.envelope.session call.envelope.message = .asks handler request

namespace Line

variable {relay : Relay} {i : Nat} {log taken : List (Call ρ)} {line : Line ρ} {call : Call ρ}
  {handler : Handler} {request : Mailbox.Request} {response : Response}

omit [RandomSource ρ] in
/-- After a response a line is free again or closed. -/
theorem phase_respond (line : Line ρ) (call : Call ρ) (response : Response) :
    (line.respond call response).phase = .idle ∨ (line.respond call response).phase = .closed := by
  rw [respond]
  split
  · exact .inl rfl
  · exact .inr rfl

omit [RandomSource ρ] in
/-- Nothing is asked of the mailbox by a line that has just responded. -/
theorem waiting?_respond : (line.respond call response).waiting? = none := by
  rcases line.phase_respond call response with hPhase | hPhase <;> rw [waiting?, hPhase]

theorem owed?_respond (cc : Scheme.Context) : (line.respond call response).owed? cc = none := by
  rcases line.phase_respond call response with hPhase | hPhase <;> rw [owed?, hPhase]

omit [RandomSource ρ] in
theorem not_asking_respond {other : Call ρ} :
    (line.respond call response).phase ≠ .asking other handler request := by
  rcases line.phase_respond call response with hPhase | hPhase <;> simp [hPhase]

omit [RandomSource ρ] in
/-- A line that waits has asked something on behalf of a call. -/
theorem exists_asking (h : line.waiting?.isSome) :
    ∃ call handler request, line.phase = .asking call handler request := by
  rw [waiting?] at h
  split at h
  · exact ⟨_, _, _, by assumption⟩
  all_goals cases h

/-- A message of another connection changes nothing. -/
theorem Agrees.elsewhere (h : line.Agrees relay i log taken) (hLine : call.line ≠ i) :
    line.Agrees relay i (log ++ [call]) taken where
  responses := by
    rw [responses_append, List.filter_append, h.responses]
    simp [Relay.responses, hLine]
  taken := by
    rw [List.filter_append, h.taken]
    simp [hLine]
  asking := h.asking

/-- The connection takes a message and responds to it at once. -/
theorem Agrees.settle (h : line.Agrees relay call.line log taken) (hIdle : line.phase = .idle)
    (hBegins : opening relay.context call.envelope.session call.envelope.message =
      .settled response) :
    (line.respond call response).Agrees relay call.line (log ++ [call]) (taken ++ [call]) where
  responses := by
    have hOwed : line.owed? relay.context = none := by rw [owed?, hIdle]
    rw [← context_after relay log] at hBegins
    rw [responses_append, List.filter_append, h.responses, owed?_respond, hOwed]
    simp [Relay.responses, dispatch_of_settled hBegins, respond]
  taken := by
    have hWaiting : line.waiting? = none := by rw [waiting?, hIdle]
    rw [h.taken, List.filter_append, waiting?_respond, hWaiting]
    simp
  asking _ _ _ hPhase := absurd hPhase not_asking_respond

/-- The connection takes a message and asks the mailbox. -/
theorem Agrees.ask (h : line.Agrees relay call.line log taken) (hIdle : line.phase = .idle)
    (hBegins : opening relay.context call.envelope.session call.envelope.message =
      .asks handler request) :
    Agrees relay call.line log (taken ++ [call])
      { line with phase := .asking call handler request } where
  responses := by
    have hOwed : line.owed? relay.context = none := by rw [owed?, hIdle]
    rw [h.responses, hOwed]
    rfl
  taken := by
    have hWaiting : line.waiting? = none := by rw [waiting?, hIdle]
    rw [h.taken, hWaiting]
    simp [waiting?]
  asking := by
    rintro _ _ _ ⟨⟩
    exact ⟨rfl, hBegins⟩

/-- The server executes the request of the connection. -/
theorem Agrees.answer (h : line.Agrees relay i log taken)
    (hAsking : line.phase = .asking call handler request) :
    Agrees relay i (log ++ [call]) taken
      { line with
        phase := .answered call handler ((relay.after log).server.execute request).1 } where
  responses := by
    obtain ⟨rfl, hBegins⟩ := h.asking call handler request hAsking
    have hOwed : line.owed? relay.context = none := by rw [owed?, hAsking]
    rw [← context_after relay log] at hBegins
    rw [responses_append, List.filter_append, h.responses, hOwed]
    simp [Relay.responses, (dispatch_of_asks hBegins call.source).1, owed?, context_after]
  taken := by
    obtain ⟨rfl, -⟩ := h.asking call handler request hAsking
    have hWaiting : line.waiting? = some call := by rw [waiting?, hAsking]
    rw [h.taken, List.filter_append, hWaiting]
    simp [waiting?]
  asking := by
    rintro _ _ _ ⟨⟩

/-- The connection replies. -/
theorem Agrees.reply {answer : Option Mailbox.Reply} (h : line.Agrees relay i log taken)
    (hAnswered : line.phase = .answered call handler answer) :
    (line.respond call (conclusion relay.context handler call.envelope.message answer
      call.source)).Agrees relay i log taken where
  responses := by
    have hOwed : line.owed? relay.context = some (call, conclusion relay.context handler
        call.envelope.message answer call.source) := by
      rw [owed?, hAnswered]
    rw [h.responses, hOwed, owed?_respond]
    simp [respond]
  taken := by
    have hWaiting : line.waiting? = none := by rw [waiting?, hAnswered]
    rw [h.taken, hWaiting, waiting?_respond]
  asking _ _ _ hPhase := absurd hPhase not_asking_respond

end Line

/-- The relay is as the messages have left it one after another, and every connection agrees with
that order. -/
structure Traffic.Ordered (first : Relay) (events : List (Traffic.Event ρ)) (traffic : Traffic ρ) :
    Prop where
  relay : traffic.relay = first.after traffic.log
  lines : ∀ i (line : Line ρ), traffic.lines[i]? = some line →
    line.Agrees first i traffic.log (taken i events)

namespace Traffic

variable {first : Relay} {traffic later : Traffic ρ} {events : List (Event ρ)} {event : Event ρ}

omit [RandomSource ρ] in
@[simp]
theorem log_setLine (traffic : Traffic ρ) (i : Nat) (line : Line ρ) :
    (traffic.setLine i line).log = traffic.log :=
  rfl

omit [RandomSource ρ] in
@[simp]
theorem taken_take (i : Nat) (call : Call ρ) :
    taken i [.take call] = if call.line = i then [call] else [] := by
  by_cases hLine : call.line = i <;> simp [taken, hLine]

omit [RandomSource ρ] in
@[simp]
theorem taken_execute (i : Nat) : taken i [(.execute : Event ρ)] = [] :=
  rfl

omit [RandomSource ρ] in
@[simp]
theorem taken_finish (i k : Nat) : taken i [(.finish k : Event ρ)] = [] :=
  rfl

omit [RandomSource ρ] in
theorem taken_append (i : Nat) (events later : List (Event ρ)) :
    taken i (events ++ later) = taken i events ++ taken i later :=
  List.filterMap_append

/-- Lines on which nothing has happened are in order. -/
theorem ordered_start (first : Relay) (count : Nat) :
    (start first count : Traffic ρ).Ordered first [] where
  relay := rfl
  lines i line hLine := by
    obtain rfl : line = {} := List.eq_of_mem_replicate (List.mem_of_getElem? hLine)
    exact ⟨rfl, rfl, by rintro _ _ _ ⟨⟩⟩

/-- Every event keeps the lines in order. -/
theorem Ordered.step (h : traffic.Ordered first events) (hStep : traffic.step? event = some later) :
    later.Ordered first (events ++ [event]) := by
  have hContext : traffic.relay.context = first.context := by rw [h.relay, context_after]
  -- The log grows where a message is settled or its request executed; only there the relay moves.
  cases step_of_step? hStep with
  | @settled call line response found idle begins =>
      constructor
      case relay =>
        rw [after_append, ← h.relay]
        exact (congrArg Handling.relay (dispatch_of_settled begins call.source)).symm
      case lines =>
        intro i other hOther
        rw [hContext] at begins
        rw [taken_append]
        rcases setLine_cases hOther with ⟨rfl, rfl⟩ | ⟨hNe, hOther⟩
        · simpa using (h.lines _ _ found).settle idle begins
        · simpa [hNe.symm] using (h.lines i other hOther).elsewhere hNe.symm
  | @asks call line handler request found idle begins =>
      constructor
      case relay => exact h.relay
      case lines =>
        intro i other hOther
        rw [hContext] at begins
        rw [taken_append]
        rcases setLine_cases hOther with ⟨rfl, rfl⟩ | ⟨hNe, hOther⟩
        · simpa using (h.lines _ _ found).ask idle begins
        · simpa [hNe.symm] using h.lines i other hOther
  | @execute k queue call line handler request next found asking =>
      obtain ⟨hCall, begins⟩ := (h.lines _ _ found).asking call handler request asking
      rw [← hContext] at begins
      constructor
      case relay =>
        rw [after_append, ← h.relay]
        exact (dispatch_of_asks begins call.source).2.symm
      case lines =>
        intro i other hOther
        rw [taken_append]
        rcases setLine_cases hOther with ⟨rfl, rfl⟩ | ⟨hNe, hOther⟩
        · simpa [h.relay] using (h.lines _ _ found).answer asking
        · simpa using (h.lines i other hOther).elsewhere (hCall ▸ hNe.symm)
  | @finish k call line handler answer found answered =>
      constructor
      case relay => exact h.relay
      case lines =>
        intro i other hOther
        rw [taken_append]
        rcases setLine_cases hOther with ⟨rfl, rfl⟩ | ⟨hNe, hOther⟩
        · simpa [hContext] using (h.lines _ _ found).reply answered
        · simpa using h.lines i other hOther

/-- Whether a connection waits for the server to execute its request. -/
def Waits (traffic : Traffic ρ) (i : Nat) : Prop :=
  ∃ line, traffic.lines[i]? = some line ∧ line.waiting?.isSome

omit [RandomSource ρ] in
/-- A change of one line has no say in whether another one waits. -/
theorem waits_setLine {k : Nat} {line : Line ρ} (hLine : traffic.lines[k]? = some line)
    (new : Line ρ) (i : Nat) :
    (traffic.setLine k new).Waits i ↔
      if i = k then new.waiting?.isSome = true else traffic.Waits i := by
  have hLt := (List.getElem?_eq_some_iff.mp hLine).1
  by_cases hSame : i = k
  · subst hSame
    simp [Waits, setLine, List.getElem?_set_self hLt]
  · simp [Waits, setLine, List.getElem?_set_ne (Ne.symm hSame), hSame]

omit [RandomSource ρ] in
theorem waits_iff {k : Nat} {line : Line ρ} (hLine : traffic.lines[k]? = some line) :
    traffic.Waits k ↔ line.waiting?.isSome := by
  simp [Waits, hLine]

/-- The queue has the connections that wait, each once. -/
structure Queued (traffic : Traffic ρ) : Prop where
  nodup : traffic.queue.Nodup
  mem_iff : ∀ i, i ∈ traffic.queue ↔ traffic.Waits i

omit [RandomSource ρ] in
theorem queued_start (first : Relay) (count : Nat) : (start first count : Traffic ρ).Queued where
  nodup := .nil
  mem_iff i := by
    refine ⟨fun hMem => (List.not_mem_nil hMem).elim, ?_⟩
    rintro ⟨line, hLine, hWaits⟩
    obtain rfl : line = {} := List.eq_of_mem_replicate (List.mem_of_getElem? hLine)
    cases hWaits

omit [RandomSource ρ] in
/-- A line may change as long as it waits after the change if it has waited before. -/
theorem Queued.setLine (h : traffic.Queued) {k : Nat} {line new : Line ρ}
    (hLine : traffic.lines[k]? = some line)
    (hSame : new.waiting?.isSome = line.waiting?.isSome) : (traffic.setLine k new).Queued where
  nodup := h.nodup
  mem_iff i := by
    rw [waits_setLine hLine]
    by_cases hi : i = k
    · rw [if_pos hi, hSame, ← waits_iff hLine, ← hi]
      exact h.mem_iff i
    · rw [if_neg hi]
      exact h.mem_iff i

/-- After every event the queue holds those that wait, each once. -/
theorem Queued.step (h : traffic.Queued) (hStep : traffic.step? event = some later) :
    later.Queued := by
  cases step_of_step? hStep with
  | @settled call line response found idle begins =>
      have hSame : (line.respond call response).waiting?.isSome = line.waiting?.isSome := by
        rw [Line.waiting?_respond, Line.waiting?, idle]
      have hSet := h.setLine found hSame
      exact ⟨hSet.nodup, hSet.mem_iff⟩
  | @asks call line handler request found idle begins =>
      have hIdle : ¬traffic.Waits call.line := by
        rw [waits_iff found, Line.waiting?, idle]
        exact Bool.false_ne_true
      constructor
      case nodup =>
        rw [List.nodup_append]
        refine ⟨h.nodup, by simp, ?_⟩
        intro i hMem k hLast hSame
        rw [hSame, List.mem_singleton.mp hLast, h.mem_iff] at hMem
        exact hIdle hMem
      case mem_iff =>
        intro i
        refine Iff.trans ?_ (waits_setLine found _ i).symm
        rw [List.mem_append, List.mem_singleton, h.mem_iff]
        by_cases hi : i = call.line <;> simp [hi, Line.waiting?]
  | @execute k queue call line handler request next found asking =>
      have hNodup := h.nodup
      rw [next, List.nodup_cons] at hNodup
      constructor
      case nodup => exact hNodup.2
      case mem_iff =>
        intro i
        refine Iff.trans ?_ (waits_setLine found _ i).symm
        by_cases hi : i = k
        · subst hi
          simp [hNodup.1, Line.waiting?]
        · rw [if_neg hi, ← h.mem_iff, next, List.mem_cons, or_iff_right hi]
  | @finish k call line handler answer found answered =>
      apply h.setLine found
      rw [Line.waiting?_respond, Line.waiting?, answered]

/-- While a connection waits, the server can execute the request that is next. -/
theorem Queued.execute_isSome (h : traffic.Queued) {i : Nat} {line : Line ρ}
    (hLine : traffic.lines[i]? = some line) (hWaits : line.waiting?.isSome) :
    i ∈ traffic.queue ∧ (traffic.step? .execute).isSome := by
  have hMem : i ∈ traffic.queue := (h.mem_iff i).mpr ⟨line, hLine, hWaits⟩
  refine ⟨hMem, ?_⟩
  cases hQueue : traffic.queue with
  | nil =>
      rw [hQueue] at hMem
      exact (List.not_mem_nil hMem).elim
  | cons k queue =>
      have hFirst : k ∈ traffic.queue := hQueue ▸ List.mem_cons_self
      obtain ⟨first, hFound, hFirstWaits⟩ := (h.mem_iff k).mp hFirst
      obtain ⟨call, handler, request, hPhase⟩ := Line.exists_asking hFirstWaits
      simp [step?, execute?, hQueue, hFound, hPhase]

/-- A line that has its answer can respond at once. -/
theorem finish_isSome {cc : Scheme.Context} {i : Nat} {line : Line ρ}
    (hLine : traffic.lines[i]? = some line) (hOwed : (line.owed? cc).isSome) :
    (traffic.step? (.finish i)).isSome := by
  rw [Line.owed?] at hOwed
  split at hOwed
  case h_1 call handler answer hPhase => simp [step?, finish?, hLine, hPhase]
  all_goals cases hOwed

end Traffic

end CipherRelay.Relay
