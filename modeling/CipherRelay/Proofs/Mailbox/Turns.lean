import CipherRelay.Mailbox.Desk
import Mathlib.Data.List.Induction
/-!
Requests of several callers at once. The server executes one request at a time, so its requests are
in one order, and it answers them as a mailbox does that is given the same requests in this order.
What each caller has read and has yet to read are those answers, and after them a refusal for each
request that the server has not executed.
-/
namespace CipherRelay.Mailbox

/-- The error that an answer reports. -/
def Reply.error? : Reply → Option StoreError
  | .store (.error error) | .fetch (.error error) | .fetchMany (.error error)
  | .clearRole (.error error) | .shutdown (.error error) => some error
  | .store (.ok _) | .fetch (.ok _) | .fetchMany (.ok _) | .clearRole (.ok _)
  | .shutdown (.ok _) => none

namespace Store

/-- The mailbox after a request. One that is refused changes nothing. -/
def after (store : Store) : Request → Store
  | .store session kind payload =>
      match store.put session kind payload with
      | .ok filled => filled
      | .error _ => store
  | .clearRole session role => store.clear session role
  | .fetch _ _ | .fetchMany _ _ | .shutdown => store

/-- What the mailbox says to a request. -/
def answer (store : Store) : Request → Reply
  | .store session kind payload => .store ((store.put session kind payload).map fun _ => ())
  | .fetch session kind => .fetch (store.fetch session kind)
  | .fetchMany session kinds => .fetchMany (.ok (store.fetchMany session kinds))
  | .clearRole session role => .clearRole (.ok (store.size - (store.clear session role).size))
  | .shutdown => .shutdown (.ok ())

/-- The mailbox after several requests, one after another. -/
def afterAll (store : Store) (log : List (Nat × Request)) : Store :=
  log.foldl (fun store entry => store.after entry.2) store

/-- What the mailbox says to the requests of a caller, among several requests one after another. -/
def answers (store : Store) (i : Nat) : List (Nat × Request) → List (Request × Reply)
  | [] => []
  | entry :: rest =>
      (if entry.1 = i then [(entry.2, store.answer entry.2)] else []) ++
        (store.after entry.2).answers i rest

/-- Requests are executed one after another. -/
theorem afterAll_append (store : Store) (log later : List (Nat × Request)) :
    store.afterAll (log ++ later) = (store.afterAll log).afterAll later :=
  List.foldl_append

/-- The answers to later requests depend on the earlier ones only through the store. -/
theorem answers_append (store : Store) (i : Nat) (log later : List (Nat × Request)) :
    store.answers i (log ++ later) =
      store.answers i log ++ (store.afterAll log).answers i later := by
  induction log generalizing store with
  | nil => rfl
  | cons entry rest ih =>
      rw [List.cons_append, answers, ih, ← List.append_assoc]
      rfl

/-- The server answers as the mailbox does, and it keeps the mailbox unless it is told to stop. -/
theorem serve_eq (store : Store) (request : Request) :
    Server.serve store request = (store.answer request,
      if request = .shutdown then .stopped else .running (store.after request)) := by
  cases request with
  | store session kind payload =>
      simp only [Server.serve, answer, after, reduceCtorEq, if_false]
      cases store.put session kind payload <;> rfl
  | fetch session kind => rfl
  | fetchMany session kinds => rfl
  | clearRole session role => rfl
  | shutdown => rfl

/-- A caller reads what the mailbox says. -/
theorem read_answer (store : Store) (request : Request) :
    Client.read request (some (store.answer request)) = store.answer request := by
  cases request <;> rfl

/-- The store never answers with the wrong kind of reply. -/
theorem error?_answer (store : Store) (request : Request) :
    (store.answer request).error? ≠ some .unexpectedResponse := by
  cases request with
  | store session kind payload =>
      simp only [answer, put]
      split <;> simp [Except.map, Reply.error?]
  | fetch session kind =>
      simp only [answer, fetch]
      split <;> simp [Reply.error?]
  | fetchMany session kinds => simp [answer, Reply.error?]
  | clearRole session role => simp [answer, Reply.error?]
  | shutdown => simp [answer, Reply.error?]

/-- Whoever asks for the shutdown is told that it is done. -/
theorem mem_answers_shutdown {store : Store} {i : Nat} {log : List (Nat × Request)}
    (h : (i, .shutdown) ∈ log) : (.shutdown, .shutdown (.ok ())) ∈ store.answers i log := by
  induction log generalizing store with
  | nil => cases h
  | cons first rest ih =>
      rw [answers, List.mem_append]
      rcases List.mem_cons.mp h with rfl | hRest
      · exact .inl (by simp [answer])
      · exact .inr (ih hRest)

/-- No answer in a log is of the wrong kind. -/
theorem error?_of_mem_answers {store : Store} {i : Nat} {log : List (Nat × Request)}
    {entry : Request × Reply} (h : entry ∈ store.answers i log) :
    entry.2.error? ≠ some .unexpectedResponse := by
  induction log generalizing store with
  | nil => cases h
  | cons first rest ih =>
      rcases List.mem_append.mp h with hFirst | hRest
      · split at hFirst
        · rw [List.mem_singleton.mp hFirst]
          exact error?_answer _ _
        · cases hFirst
      · exact ih hRest

end Store

/-- The answer that the server is gone, in the form of the request. -/
def Request.refusal : Request → Reply
  | .store _ _ _ => .store (.error .storeShutdown)
  | .fetch _ _ => .fetch (.error .storeShutdown)
  | .fetchMany _ _ => .fetchMany (.error .storeShutdown)
  | .clearRole _ _ => .clearRole (.error .storeShutdown)
  | .shutdown => .shutdown (.error .storeShutdown)

theorem Request.error?_refusal (request : Request) :
    request.refusal.error? = some .storeShutdown := by
  cases request <;> rfl

/-- Where no answer comes, a caller reads that the server is gone. -/
theorem Client.read_none (request : Request) : read request none = request.refusal := by
  cases request <;> rfl

namespace Caller

/-- The request of a call that the server has not dealt with. -/
def unserved? (caller : Caller) : Option Request :=
  match caller.phase with
  | .sending request | .waiting request => some request
  | .idle | .told _ _ => none

/-- What the caller is about to read. -/
def owed? (caller : Caller) : Option (Request × Reply) :=
  match caller.phase with
  | .told request reply => some (request, Client.read request reply)
  | .idle | .sending _ | .waiting _ => none

/-- The request of the call that is under way. -/
def request? (caller : Caller) : Option Request :=
  match caller.phase with
  | .sending request | .waiting request | .told request _ => some request
  | .idle => none

/-- What a caller has read and has yet to read, compared to the order in which the server has
executed the requests of all callers. The refused requests are those that have been lost. -/
structure Agrees (log : List (Nat × Request)) (i : Nat) (calls refused : List Request)
    (caller : Caller) : Prop where
  answers : Store.empty.answers i log ++ refused.map (fun request => (request, request.refusal)) =
    caller.answers ++ caller.owed?.toList
  calls : calls =
    (Store.empty.answers i log).map (·.1) ++ refused ++ caller.unserved?.toList

variable {i : Nat} {log : List (Nat × Request)} {calls refused : List Request} {caller : Caller}
  {request : Request} {reply : Option Reply}

/-- A request of another caller changes nothing. -/
theorem Agrees.elsewhere (h : caller.Agrees log i calls refused) {k : Nat} (hOther : k ≠ i)
    (request : Request) : caller.Agrees (log ++ [(k, request)]) i calls refused := by
  have hAnswers : Store.empty.answers i (log ++ [(k, request)]) = Store.empty.answers i log := by
    rw [Store.answers_append]
    simp [Store.answers, hOther]
  constructor
  case answers => rw [hAnswers, h.answers]
  case calls => rw [hAnswers, h.calls]

/-- A new request of a caller that waits for nothing joins its calls. -/
theorem Agrees.call (h : caller.Agrees log i calls refused) (hIdle : caller.phase = .idle)
    (request : Request) :
    Agrees log i (calls ++ [request]) refused { caller with phase := .sending request } where
  answers := by
    rw [h.answers, owed?, hIdle]
    rfl
  calls := by
    rw [h.calls, unserved?, hIdle]
    simp [unserved?]

theorem Agrees.send (h : caller.Agrees log i calls refused)
    (hSending : caller.phase = .sending request) :
    Agrees log i calls refused { caller with phase := .waiting request } where
  answers := by
    rw [h.answers, owed?, hSending]
    rfl
  calls := by
    rw [h.calls, unserved?, hSending]
    rfl

/-- The request is lost, on its way to the server or behind it. -/
theorem Agrees.refuse (h : caller.Agrees log i calls refused)
    (hUnserved : caller.unserved? = some request) (hOwed : caller.owed? = none) :
    Agrees log i calls (refused ++ [request]) { caller with phase := .told request none } where
  answers := by
    rw [List.map_append, ← List.append_assoc, h.answers, hOwed]
    simp [owed?, Client.read_none]
  calls := by
    rw [h.calls, hUnserved]
    simp [unserved?]

/-- The server executes the request, and so far it has left none behind. -/
theorem Agrees.execute (h : caller.Agrees log i calls [])
    (hWaiting : caller.phase = .waiting request) :
    Agrees (log ++ [(i, request)]) i calls []
      { caller with
        phase := .told request (some ((Store.empty.afterAll log).answer request)) } where
  answers := by
    have hSame := h.answers
    rw [owed?, hWaiting] at hSame
    simp only [List.map_nil, List.append_nil, Option.toList_none] at hSame
    rw [Store.answers_append, hSame]
    simp [Store.answers, owed?, Store.read_answer]
  calls := by
    rw [h.calls, unserved?, hWaiting, Store.answers_append]
    simp [Store.answers, unserved?]

/-- An answer that is heard becomes the last one of its caller. -/
theorem Agrees.hear (h : caller.Agrees log i calls refused)
    (hTold : caller.phase = .told request reply) :
    Agrees log i calls refused {
      phase := .idle
      answers := caller.answers ++ [(request, Client.read request reply)] } where
  answers := by
    rw [h.answers, owed?, hTold]
    simp [owed?]
  calls := by
    rw [h.calls, unserved?, hTold]
    rfl

/-- Every call has one answer, but for the one that is under way. -/
theorem Agrees.calls_eq (h : caller.Agrees log i calls refused) :
    calls = caller.answers.map (·.1) ++ caller.request?.toList := by
  have hRefused :
      refused = (refused.map fun request => (request, request.refusal)).map (·.1) := by
    simp [Function.comp_def]
  rw [h.calls, hRefused, ← List.map_append, h.answers]
  rw [owed?, unserved?, request?]
  cases caller.phase <;> simp

/-- The answers are those of the mailbox, and refusals behind them. -/
theorem Agrees.error? (h : caller.Agrees log i calls refused) {entry : Request × Reply}
    (hMem : entry ∈ caller.answers) : entry.2.error? ≠ some .unexpectedResponse := by
  have hAll : entry ∈ caller.answers ++ caller.owed?.toList := List.mem_append_left _ hMem
  rw [← h.answers] at hAll
  rcases List.mem_append.mp hAll with hServed | hRefused
  · exact Store.error?_of_mem_answers hServed
  · obtain ⟨request, -, rfl⟩ := List.mem_map.mp hRefused
    simp [Request.error?_refusal]

end Caller

namespace Desk

/-- The requests that a caller starts to call with in the course of some events. -/
def calls (i : Nat) (events : List Event) : List Request :=
  events.filterMap fun event =>
    match event with
    | .call k request => if k = i then some request else none
    | .send _ | .execute | .close | .drop | .hear _ => none

/-- What an event does. -/
inductive Step (desk : Desk) : Event → Desk → Prop
  | call {i : Nat} {request : Request} {caller : Caller} (found : desk.callers[i]? = some caller)
      (idle : caller.phase = .idle) :
      Step desk (.call i request) (desk.setCaller i { caller with phase := .sending request })
  | send {i : Nat} {request : Request} {caller : Caller} (found : desk.callers[i]? = some caller)
      (sending : caller.phase = .sending request) (isOpen : desk.isOpen = true) :
      Step desk (.send i) { desk.setCaller i { caller with phase := .waiting request } with
        queue := desk.queue ++ [i] }
  | bounce {i : Nat} {request : Request} {caller : Caller} (found : desk.callers[i]? = some caller)
      (sending : caller.phase = .sending request) (closed : desk.isOpen = false) :
      Step desk (.send i) (desk.setCaller i { caller with phase := .told request none })
  | execute {store : Store} {i : Nat} {queue : List Nat} {request : Request} {caller : Caller}
      (running : desk.server = .running store) (next : desk.queue = i :: queue)
      (found : desk.callers[i]? = some caller) (waiting : caller.phase = .waiting request) :
      Step desk .execute
        { desk.setCaller i
            { caller with phase := .told request (some (store.answer request)) } with
          server := if request = .shutdown then .stopped else .running (store.after request)
          queue := queue
          log := desk.log ++ [(i, request)] }
  | close (stopped : desk.server = .stopped) (isOpen : desk.isOpen = true) :
      Step desk .close { desk with isOpen := false }
  | drop {i : Nat} {queue : List Nat} {request : Request} {caller : Caller}
      (next : desk.queue = i :: queue) (found : desk.callers[i]? = some caller)
      (waiting : caller.phase = .waiting request) (closed : desk.isOpen = false) :
      Step desk .drop { desk.setCaller i { caller with phase := .told request none } with
        queue := queue }
  | hear {i : Nat} {request : Request} {reply : Option Reply} {caller : Caller}
      (found : desk.callers[i]? = some caller) (told : caller.phase = .told request reply) :
      Step desk (.hear i) (desk.setCaller i {
        phase := .idle
        answers := caller.answers ++ [(request, Client.read request reply)] })

/-- Each event that a desk allows is one of the ways in which it goes on. -/
theorem step_of_step? {desk after : Desk} {event : Event} (h : desk.step? event = some after) :
    desk.Step event after := by
  cases event with
  | call i request =>
      simp only [step?, call?, Option.bind_eq_bind, Option.bind_eq_some_iff] at h
      obtain ⟨caller, hCaller, h⟩ := h
      cases hPhase : caller.phase with
      | idle =>
          simp only [hPhase, Option.pure_def, Option.some.injEq] at h
          exact h ▸ .call hCaller hPhase
      | _ => simp [hPhase] at h
  | send i =>
      simp only [step?, send?, Option.bind_eq_bind, Option.bind_eq_some_iff] at h
      obtain ⟨caller, hCaller, h⟩ := h
      cases hPhase : caller.phase with
      | sending request =>
          simp only [hPhase] at h
          split at h
          case isTrue hOpen => exact Option.some.inj h ▸ .send hCaller hPhase hOpen
          case isFalse hClosed =>
            exact Option.some.inj h ▸ .bounce hCaller hPhase (Bool.not_eq_true _ ▸ hClosed)
      | _ => simp [hPhase] at h
  | execute =>
      simp only [step?, execute?, Option.bind_eq_bind] at h
      cases hServer : desk.server with
      | stopped => simp [hServer] at h
      | running store =>
          cases hQueue : desk.queue with
          | nil => simp [hServer, hQueue] at h
          | cons i queue =>
              simp only [hServer, hQueue, Option.bind_eq_some_iff] at h
              obtain ⟨caller, hCaller, h⟩ := h
              cases hPhase : caller.phase with
              | waiting request =>
                  simp only [hPhase, Store.serve_eq, Option.pure_def, Option.some.injEq] at h
                  exact h ▸ .execute hServer hQueue hCaller hPhase
              | _ => simp [hPhase] at h
  | close =>
      simp only [step?, close?] at h
      split at h
      case isTrue hStopped => exact Option.some.inj h ▸ .close hStopped.1 hStopped.2
      case isFalse => cases h
  | drop =>
      simp only [step?, drop?, Option.bind_eq_bind] at h
      cases hQueue : desk.queue with
      | nil => simp [hQueue] at h
      | cons i queue =>
          simp only [hQueue, Option.bind_eq_some_iff] at h
          obtain ⟨caller, hCaller, h⟩ := h
          cases hPhase : caller.phase with
          | waiting request =>
              simp only [hPhase] at h
              split at h
              case isTrue => cases h
              case isFalse hClosed =>
                exact Option.some.inj h ▸
                  .drop hQueue hCaller hPhase (Bool.not_eq_true _ ▸ hClosed)
          | _ => simp [hPhase] at h
  | hear i =>
      simp only [step?, hear?, Option.bind_eq_bind, Option.bind_eq_some_iff] at h
      obtain ⟨caller, hCaller, h⟩ := h
      cases hPhase : caller.phase with
      | told request reply =>
          simp only [hPhase, Option.pure_def, Option.some.injEq] at h
          exact h ▸ .hear hCaller hPhase
      | _ => simp [hPhase] at h

/-- What holds at first and is kept by every event holds after any events. -/
theorem follow_induction {P : List Event → Desk → Prop} {start desk : Desk} {events : List Event}
    (hFollow : start.follow? events = some desk) (hStart : P [] start)
    (hStep : ∀ events earlier event later, P events earlier →
      earlier.step? event = some later → P (events ++ [event]) later) : P events desk := by
  -- By induction on the events, the last one split off.
  induction events using List.reverseRecOn generalizing desk with
  | nil =>
      cases hFollow
      exact hStart
  | append_singleton events event ih =>
      rw [follow?, List.foldlM_append] at hFollow
      obtain ⟨earlier, hEarlier, hLast⟩ := Option.bind_eq_some_iff.mp hFollow
      rw [List.foldlM_cons] at hLast
      obtain ⟨last, hLast, hEnd⟩ := Option.bind_eq_some_iff.mp hLast
      cases hEnd
      exact hStep _ _ _ _ (ih hEarlier) hLast

/-- A caller that is found after a change is the changed one or was there before. -/
theorem setCaller_cases {desk : Desk} {i k : Nat} {caller new : Caller}
    (h : (desk.setCaller k new).callers[i]? = some caller) :
    i = k ∧ caller = new ∨ i ≠ k ∧ desk.callers[i]? = some caller := by
  rw [setCaller, List.getElem?_set] at h
  split at h
  · split at h
    · exact .inl ⟨by omega, (Option.some.inj h).symm⟩
    · cases h
  · exact .inr ⟨by omega, h⟩

@[simp]
theorem log_setCaller (desk : Desk) (i : Nat) (caller : Caller) :
    (desk.setCaller i caller).log = desk.log :=
  rfl

/-- The server is as the requests it has executed have left it, and every caller agrees with their
order. -/
structure Ordered (events : List Event) (desk : Desk) : Prop where
  server : (∀ entry ∈ desk.log, entry.2 ≠ .shutdown) ∧
      desk.server = .running (Store.empty.afterAll desk.log) ∨
    (∃ i before, desk.log = before ++ [(i, .shutdown)] ∧
      ∀ entry ∈ before, entry.2 ≠ .shutdown) ∧ desk.server = .stopped
  closed : desk.isOpen = false → desk.server = .stopped
  callers : ∀ i (caller : Caller), desk.callers[i]? = some caller →
    ∃ refused, (desk.isOpen = true → refused = []) ∧
      caller.Agrees desk.log i (calls i events) refused

variable {desk later : Desk} {events : List Event} {event : Event}

@[simp]
theorem calls_call (i k : Nat) (request : Request) :
    calls i [.call k request] = if k = i then [request] else [] := by
  by_cases hCaller : k = i <;> simp [calls, hCaller]

@[simp]
theorem calls_send (i k : Nat) : calls i [.send k] = [] :=
  rfl

@[simp]
theorem calls_execute (i : Nat) : calls i [.execute] = [] :=
  rfl

@[simp]
theorem calls_close (i : Nat) : calls i [.close] = [] :=
  rfl

@[simp]
theorem calls_drop (i : Nat) : calls i [.drop] = [] :=
  rfl

@[simp]
theorem calls_hear (i k : Nat) : calls i [.hear k] = [] :=
  rfl

theorem calls_append (i : Nat) (events later : List Event) :
    calls i (events ++ later) = calls i events ++ calls i later :=
  List.filterMap_append

/-- A desk at which nothing has happened is in order. -/
theorem ordered_start (count : Nat) : (start count).Ordered [] where
  server := .inl ⟨by simp [start], rfl⟩
  closed h := by cases h
  callers i caller hCaller := by
    obtain rfl : caller = {} := List.eq_of_mem_replicate (List.mem_of_getElem? hCaller)
    exact ⟨[], fun _ => rfl, rfl, rfl⟩

/-- While the server has a mailbox, it is that of the requests executed so far. -/
theorem Ordered.running (h : desk.Ordered events) {store : Store}
    (hRunning : desk.server = .running store) :
    (∀ entry ∈ desk.log, entry.2 ≠ .shutdown) ∧ store = Store.empty.afterAll desk.log ∧
      desk.isOpen = true := by
  rcases h.server with ⟨hLog, hServer⟩ | ⟨-, hServer⟩
  · have hStore : Server.running store = .running (Store.empty.afterAll desk.log) :=
      hRunning.symm.trans hServer
    refine ⟨hLog, Server.running.inj hStore, ?_⟩
    by_contra hClosed
    rw [h.closed (Bool.not_eq_true _ ▸ hClosed)] at hRunning
    cases hRunning
  · rw [hServer] at hRunning
    cases hRunning

/-- Every event keeps a desk in order. -/
theorem Ordered.step (h : desk.Ordered events) (hStep : desk.step? event = some later) :
    later.Ordered (events ++ [event]) := by
  -- Only an execution adds to the log; only a lost request adds to the refused ones.
  cases step_of_step? hStep with
  | @call k request caller found idle =>
      refine ⟨h.server, h.closed, fun i other hOther => ?_⟩
      rw [calls_append, calls_call]
      rcases setCaller_cases hOther with ⟨rfl, rfl⟩ | ⟨hNe, hOther⟩
      · obtain ⟨refused, hRefused, hAgrees⟩ := h.callers _ _ found
        exact ⟨refused, hRefused, by simpa using hAgrees.call idle request⟩
      · obtain ⟨refused, hRefused, hAgrees⟩ := h.callers i other hOther
        exact ⟨refused, hRefused, by simpa [hNe.symm] using hAgrees⟩
  | @send k request caller found sending isOpen =>
      refine ⟨h.server, h.closed, fun i other hOther => ?_⟩
      rw [calls_append, calls_send, List.append_nil]
      rcases setCaller_cases hOther with ⟨rfl, rfl⟩ | ⟨hNe, hOther⟩
      · obtain ⟨refused, hRefused, hAgrees⟩ := h.callers _ _ found
        exact ⟨refused, hRefused, hAgrees.send sending⟩
      · exact h.callers i other hOther
  | @bounce k request caller found sending closed =>
      refine ⟨h.server, h.closed, fun i other hOther => ?_⟩
      rw [calls_append, calls_send, List.append_nil]
      rcases setCaller_cases hOther with ⟨rfl, rfl⟩ | ⟨hNe, hOther⟩
      · obtain ⟨refused, -, hAgrees⟩ := h.callers _ _ found
        refine ⟨refused ++ [request], fun hOpen => ?_, hAgrees.refuse ?_ ?_⟩
        · exact absurd (closed.symm.trans hOpen) Bool.false_ne_true
        · rw [Caller.unserved?, sending]
        · rw [Caller.owed?, sending]
      · exact h.callers i other hOther
  | @execute store k queue request caller running next found waiting =>
      obtain ⟨hLog, rfl, hOpen⟩ := h.running running
      refine ⟨?_, fun hClosed => ?_, fun i other hOther => ?_⟩
      · by_cases hShutdown : request = .shutdown
        · exact .inr ⟨⟨k, desk.log, by rw [hShutdown], hLog⟩, if_pos hShutdown⟩
        · refine .inl ⟨?_, ?_⟩
          · simp only [List.mem_append, List.mem_singleton]
            rintro entry (hMem | rfl)
            · exact hLog entry hMem
            · exact hShutdown
          · rw [if_neg hShutdown, Store.afterAll_append]
            rfl
      · exact absurd (hClosed.symm.trans hOpen) Bool.false_ne_true
      · rw [calls_append, calls_execute, List.append_nil]
        rcases setCaller_cases hOther with ⟨rfl, rfl⟩ | ⟨hNe, hOther⟩
        · obtain ⟨refused, hRefused, hAgrees⟩ := h.callers _ _ found
          obtain rfl := hRefused hOpen
          exact ⟨[], fun _ => rfl, hAgrees.execute waiting⟩
        · obtain ⟨refused, hRefused, hAgrees⟩ := h.callers i other hOther
          exact ⟨refused, hRefused, hAgrees.elsewhere hNe.symm request⟩
  | close stopped isOpen =>
      refine ⟨h.server, fun _ => stopped, fun i other hOther => ?_⟩
      rw [calls_append, calls_close, List.append_nil]
      obtain ⟨refused, -, hAgrees⟩ := h.callers i other hOther
      exact ⟨refused, fun hOpen => absurd hOpen Bool.false_ne_true, hAgrees⟩
  | @drop k queue request caller next found waiting closed =>
      refine ⟨h.server, h.closed, fun i other hOther => ?_⟩
      rw [calls_append, calls_drop, List.append_nil]
      rcases setCaller_cases hOther with ⟨rfl, rfl⟩ | ⟨hNe, hOther⟩
      · obtain ⟨refused, -, hAgrees⟩ := h.callers _ _ found
        refine ⟨refused ++ [request], fun hOpen => ?_, hAgrees.refuse ?_ ?_⟩
        · exact absurd (closed.symm.trans hOpen) Bool.false_ne_true
        · rw [Caller.unserved?, waiting]
        · rw [Caller.owed?, waiting]
      · exact h.callers i other hOther
  | @hear k request reply caller found told =>
      refine ⟨h.server, h.closed, fun i other hOther => ?_⟩
      rw [calls_append, calls_hear, List.append_nil]
      rcases setCaller_cases hOther with ⟨rfl, rfl⟩ | ⟨hNe, hOther⟩
      · obtain ⟨refused, hRefused, hAgrees⟩ := h.callers _ _ found
        exact ⟨refused, hRefused, hAgrees.hear told⟩
      · exact h.callers i other hOther

/-- Whether a caller has sent a request that the server has not taken. -/
def Waits (desk : Desk) (i : Nat) : Prop :=
  ∃ caller request, desk.callers[i]? = some caller ∧ caller.phase = .waiting request

/-- The queue has the callers that wait, each once. -/
structure Queued (desk : Desk) : Prop where
  nodup : desk.queue.Nodup
  mem_iff : ∀ i, i ∈ desk.queue ↔ desk.Waits i

/-- Nobody waits at the start, and nobody is queued. -/
theorem queued_start (count : Nat) : (start count).Queued where
  nodup := .nil
  mem_iff i := by
    refine ⟨fun hMem => (List.not_mem_nil hMem).elim, ?_⟩
    rintro ⟨caller, request, hCaller, hPhase⟩
    obtain rfl : caller = {} := List.eq_of_mem_replicate (List.mem_of_getElem? hCaller)
    cases hPhase

/-- A change of one caller has no say in whether another one waits. -/
theorem waits_setCaller {k : Nat} {caller : Caller} (hCaller : desk.callers[k]? = some caller)
    (new : Caller) (i : Nat) :
    (desk.setCaller k new).Waits i ↔
      if i = k then ∃ request, new.phase = .waiting request else desk.Waits i := by
  have hLt := (List.getElem?_eq_some_iff.mp hCaller).1
  by_cases hSame : i = k
  · subst hSame
    simp [Waits, setCaller, List.getElem?_set_self hLt]
  · simp [Waits, setCaller, List.getElem?_set_ne (Ne.symm hSame), hSame]

/-- A caller that neither waits nor begins to wait leaves the queue as it is. -/
theorem Queued.setCaller (h : desk.Queued) {k : Nat} {caller new : Caller}
    (hCaller : desk.callers[k]? = some caller) (hOld : ∀ request, caller.phase ≠ .waiting request)
    (hNew : ∀ request, new.phase ≠ .waiting request) : (desk.setCaller k new).Queued where
  nodup := h.nodup
  mem_iff i := by
    refine Iff.trans ?_ (waits_setCaller hCaller new i).symm
    by_cases hi : i = k
    · subst hi
      rw [if_pos rfl]
      refine (h.mem_iff i).trans (iff_of_false ?_ (not_exists.mpr hNew))
      rintro ⟨other, request, hOther, hPhase⟩
      cases hCaller.symm.trans hOther
      exact hOld request hPhase
    · rw [if_neg hi]
      exact h.mem_iff i

/-- The caller that is first in the queue waits no more. -/
theorem Queued.tail (h : desk.Queued) {k : Nat} {queue : List Nat} (hNext : desk.queue = k :: queue)
    {caller : Caller} (hCaller : desk.callers[k]? = some caller) (request : Request)
    (reply : Option Reply) :
    queue.Nodup ∧ ∀ i, i ∈ queue ↔
      (desk.setCaller k { caller with phase := .told request reply }).Waits i := by
  have hNodup := h.nodup
  rw [hNext, List.nodup_cons] at hNodup
  refine ⟨hNodup.2, fun i => ?_⟩
  rw [waits_setCaller hCaller]
  by_cases hi : i = k
  · subst hi
    simp [hNodup.1]
  · rw [if_neg hi, ← h.mem_iff, hNext, List.mem_cons, or_iff_right hi]

/-- After every event the queue holds those that wait, each once. -/
theorem Queued.step (h : desk.Queued) (hStep : desk.step? event = some later) : later.Queued := by
  cases step_of_step? hStep with
  | call found idle => exact h.setCaller found (by simp [idle]) (by simp)
  | @send k request caller found sending isOpen =>
      have hNot : ¬desk.Waits k := by
        rintro ⟨other, request, hOther, hPhase⟩
        cases found.symm.trans hOther
        cases sending.symm.trans hPhase
      constructor
      case nodup =>
        rw [List.nodup_append]
        refine ⟨h.nodup, by simp, ?_⟩
        intro i hMem l hLast hSame
        rw [hSame, List.mem_singleton.mp hLast, h.mem_iff] at hMem
        exact hNot hMem
      case mem_iff =>
        intro i
        refine Iff.trans ?_ (waits_setCaller found _ i).symm
        rw [List.mem_append, List.mem_singleton, h.mem_iff]
        by_cases hi : i = k <;> simp [hi]
  | bounce found sending closed => exact h.setCaller found (by simp [sending]) (by simp)
  | execute running next found waiting =>
      obtain ⟨hNodup, hMem⟩ := h.tail next found _ _
      exact ⟨hNodup, hMem⟩
  | close stopped isOpen => exact ⟨h.nodup, h.mem_iff⟩
  | drop next found waiting closed =>
      obtain ⟨hNodup, hMem⟩ := h.tail next found _ _
      exact ⟨hNodup, hMem⟩
  | hear found told => exact h.setCaller found (by simp [told]) (by simp)

end Desk

end CipherRelay.Mailbox
