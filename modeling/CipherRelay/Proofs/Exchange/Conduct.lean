import CipherRelay.Proofs.Exchange.Course
import CipherRelay.Proofs.Party.Actions
/-!
The conduct of a party: its errand in each state and what it knows there, as a function of
everything that has been drawn. What is drawn late is put into the record of draws then, so nothing
that the other party knows or has handed over by that time may depend on it. A seat sits at a mark
when its machine, its inbox and its outbox are what the conduct says.
-/
namespace CipherRelay.Exchange

open Party Scheme

/-- Whether a party may give up with a failure through no fault of its own or of the other one: for
want of patience, or for want of memory where the context has no room for its vectors. -/
inductive Pardons (cc : Context) : Failure PartyError → Prop
  | timeout {state : String} {attempts : UInt32} : Pardons cc (.error (.timeout state attempts))
  | capacity (h : ¬cc.HasRoom) : Pardons cc (.crash .capacity)

/-- What the two parties of an exchange have in common. The type `D` is that of the draws. -/
structure Setting (D : Type) where
  context : Context
  session : SessionId
  /-- The payload of each artifact. -/
  payload : D → ArtifactKind → Bytes
  /-- Whether an artifact can come about. -/
  feasible : ArtifactKind → Prop
  /-- Whether an action may fail. -/
  excuse : Prop

/-- How a party is to go about its part. -/
structure Conduct (D S L ρ : Type) where
  seat : Machine S L ρ → Participant ρ
  role : Role
  table : StepTable S L ρ
  /-- The states in the order in which the party passes them. -/
  path : List S
  errand : S → Errand
  /-- What the party does with the answer on which it goes on. -/
  action : S → Message → Action L ρ (Next S)
  /-- What the party knows while it waits in a state. -/
  knows : D → S → L
  /-- What the party knows when it has halted. -/
  result : D → L

namespace Conduct

variable {D S L S' L' ρ : Type}

def course (own : Conduct D S L ρ) : Course :=
  own.path.map own.errand

/-- What the party knows at a place of its course. -/
def knowsAt (own : Conduct D S L ρ) (d : D) (i : Nat) : L :=
  match own.path[i]? with
  | some s => own.knows d s
  | none => own.result d

/-- What the party decides on its way to a place of its course. -/
def decision (own : Conduct D S L ρ) (payload : ArtifactKind → Bytes) (i : Nat) : Option (Next S) :=
  match own.path[i]? with
  | some s => ((own.errand s).message? payload).map (.send · s)
  | none => some (.halt (.disconnect own.role))

def waiting (own : Conduct D S L ρ) (setting : Setting D) (d : D) (s : S) (policy : RetryPolicy)
    (attempts : UInt32) : Machine S L ρ where
  table := own.table
  policy := policy
  state := s
  data := own.knows d s
  outbound := (own.errand s).message? (setting.payload d)
  attempts := attempts

/-- Whether a seat is as the conduct says of a mark. -/
def Sits (own : Conduct D S L ρ) (setting : Setting D) (d : D) : Mark → Seat ρ → Prop
  | .asks i, seat => ∃ s message policy attempts, own.path[i]? = some s ∧
      (own.errand s).message? (setting.payload d) = some message ∧
      (∀ kind, own.errand s = .store kind → setting.feasible kind) ∧
      seat = ⟨own.seat (own.waiting setting d s policy attempts), setting.session, [], [message],
        none⟩
  | .hears i succeeds, seat => ∃ s reply policy attempts, own.path[i]? = some s ∧
      (if succeeds then reply = (own.errand s).answer setting.context (setting.payload d)
        else (own.errand s).retryOn = some reply.tag) ∧
      seat = ⟨own.seat (own.waiting setting d s policy attempts), setting.session, [reply], [],
        none⟩
  | .failed i _, seat => ∃ s policy attempts data failure, own.path[i]? = some s ∧
      (data = own.knows d s ∧ Pardons setting.context failure ∨ setting.excuse) ∧
      seat = ⟨own.seat { own.waiting setting d s policy attempts with data }, setting.session, [],
        [], some failure⟩
  | .leaves, seat => ∃ machine, machine.halted = true ∧ machine.data = own.result d ∧
      seat = ⟨own.seat machine, setting.session, [], [.disconnect own.role], none⟩
  | .left, seat => ∃ machine, machine.halted = true ∧ machine.data = own.result d ∧
      seat = ⟨own.seat machine, setting.session, [], [], none⟩

/-- The relay and the marks of two parties go together: the slots hold what has been handed over and
not been cleared, and neither party is further than the other one allows. -/
structure Shared (own : Conduct D S L ρ) (peer : Conduct D S' L' ρ) (setting : Setting D) (d : D)
    (mark mark' : Mark) (relay : Relay) : Prop where
  context : relay.context = setting.context
  slots : ∃ store, relay.server = .running store ∧ ∀ kind bytes,
    store.get? setting.session kind = some bytes ↔
      Present own.course peer.course mark mark' kind ∧ bytes = setting.payload d kind
  earned : Earned own.course peer.course mark mark'
  earned' : Earned peer.course own.course mark' mark
  feasible : ∀ kind, .store kind ∈ given own.course peer.course mark mark' → setting.feasible kind

/-- What a party has handed over has been able to come about. -/
theorem Shared.feasible_of_done {own : Conduct D S L ρ} {peer : Conduct D S' L' ρ}
    {setting : Setting D} {d : D} {mark mark' : Mark} {relay : Relay}
    (h : own.Shared peer setting d mark mark' relay) {n : Nat} (hDone : n ≤ mark.done own.course)
    {kind : ArtifactKind} (hMem : .store kind ∈ own.course.take n) : setting.feasible kind :=
  h.feasible kind (List.mem_append_left _ (List.take_subset_take_left _ hDone hMem))

/-- So has what a party has fetched been made from. -/
theorem Shared.feasible_of_fetch {own : Conduct D S L ρ} {peer : Conduct D S' L' ρ}
    {setting : Setting D} {d : D} {mark mark' : Mark} {relay : Relay}
    (h : own.Shared peer setting d mark mark' relay) {kind source : ArtifactKind}
    (hMem : .fetch kind ∈ own.course.take (mark.done own.course))
    (hSource : source ∈ sources kind) : setting.feasible source :=
  h.feasible source (h.earned _ hMem source hSource)

/-- What two participants share does not depend on who is named first. -/
theorem Shared.symm {own : Conduct D S L ρ} {peer : Conduct D S' L' ρ} {setting : Setting D} {d : D}
    {mark mark' : Mark} {relay : Relay} (h : own.Shared peer setting d mark mark' relay) :
    peer.Shared own setting d mark' mark relay where
  context := h.context
  slots := by
    obtain ⟨store, hServer, hSlots⟩ := h.slots
    refine ⟨store, hServer, fun kind bytes => (hSlots kind bytes).trans ?_⟩
    rw [Present, or_comm, ← Present]
  earned := h.earned'
  earned' := h.earned
  feasible kind hMem := h.feasible kind ((mem_given_comm _ _).mp hMem)

/-- What is drawn at an errand does not matter to the other party, because it cannot be past a bound
up to which neither its knowledge nor any payload in use depends on it. -/
def Keeps (own : Conduct D S L ρ) (peer : Conduct D S' L' ρ) (setting : Setting D) (i : Nat)
    (d d' : D) : Prop :=
  d' = d ∨ ∃ bound,
    (∀ n ≤ peer.course.length,
      (∀ errand ∈ peer.course.take n,
        errand.Met (own.course.take (i + 1) ++ peer.course.take n) false) → n ≤ bound) ∧
    (∀ j ≤ bound, peer.knowsAt d' j = peer.knowsAt d j) ∧
    ∀ kind, .store kind ∈ own.course.take (i + 1) ++ peer.course.take (bound + 1) ∨
        .fetch kind ∈ peer.course.take bound →
      setting.payload d' kind = setting.payload d kind

variable [DecidableEq S] [ToString S]

/-- What comes of the answer on which a party goes on: its action decides as the conduct says, and
what it draws does not matter to the other party yet. -/
def Advances (own : Conduct D S L ρ) (peer : Conduct D S' L' ρ) (setting : Setting D) (i : Nat)
    (s : S) (d : D) (source : ρ) : Prop :=
  ∃ d' next after,
    own.action s ((own.errand s).answer setting.context (setting.payload d))
        (own.knows d s, source) = .ok next (own.knowsAt d' (i + 1), after) ∧
      own.decision (setting.payload d') (i + 1) = some next ∧
      (∀ kind, own.course[i + 1]? = some (.store kind) → setting.feasible kind) ∧
      own.Keeps peer setting i d d'

/-- There is no room for what an action draws, and it crashes before it has changed anything. -/
def Stalls (own : Conduct D S L ρ) (setting : Setting D) (s : S) (d : D) (source : ρ) : Prop :=
  ¬setting.context.HasRoom ∧ ∃ after,
    own.action s ((own.errand s).answer setting.context (setting.payload d))
        (own.knows d s, source) = .error (.crash .capacity) (own.knows d s, after)

/-- A party that plays its part towards another one. -/
structure Fits (own : Conduct D S L ρ) (peer : Conduct D S' L' ρ) (setting : Setting D) : Prop where
  /-- The participant does what its machine does. -/
  onMessage : ∀ machine source message, (own.seat machine).onMessage source message =
    Participant.receipt own.seat (machine.onMessage source message)
  /-- What there is to see of the participant is what there is to see of its machine. -/
  view : ∀ {α : Type} (f : {S L : Type} → [DecidableEq S] → [ToString S] → Machine S L ρ → α)
    machine, (own.seat machine).view f = f machine
  /-- The table has a step for each state, with the tags of its errand. -/
  step : ∀ s, own.table.get? s =
    some ⟨(own.errand s).trigger, own.action s, (own.errand s).retryOn⟩
  /-- The party starts where it hears the greeting. -/
  start : own.path[0]? = some own.table.initial ∧ own.errand own.table.initial = .greeting
  suits : Suits own.role own.course peer.course
  /-- The action of each state does what the conduct says, there is no room for it, or it may fail.
  -/
  advances : ∀ i s, own.path[i]? = some s →
    (∀ kind, .store kind ∈ own.course.take (i + 1) → setting.feasible kind) →
    (∀ kind, .fetch kind ∈ own.course.take (i + 1) →
      ∀ source ∈ sources kind, setting.feasible source) →
    ∀ d source, own.Advances peer setting i s d source ∨ own.Stalls setting s d source ∨
      setting.excuse ∧ ∃ failure data after,
        own.action s ((own.errand s).answer setting.context (setting.payload d))
          (own.knows d s, source) = .error failure (data, after)

/-- Whoever stores a kind owns it. -/
theorem Fits.owned {own : Conduct D S L ρ} {peer : Conduct D S' L' ρ} {setting : Setting D}
    (h : own.Fits peer setting) (kind : ArtifactKind) (hMem : .store kind ∈ own.course) :
    kind.owner? = some own.role :=
  h.suits.1 _ hMem

theorem Fits.isStored {own : Conduct D S L ρ} {peer : Conduct D S' L' ρ} {setting : Setting D}
    (h : own.Fits peer setting) {kind : ArtifactKind} (hMem : .store kind ∈ own.course) :
    kind.isStored := by
  rw [ArtifactKind.isStored, h.owned kind hMem]
  rfl

/-- What one party hands over the other one does not. -/
theorem Fits.not_store [DecidableEq S'] [ToString S'] {own : Conduct D S L ρ}
    {peer : Conduct D S' L' ρ} {setting : Setting D} (h : own.Fits peer setting)
    (h' : peer.Fits own setting) (hRoles : own.role ≠ peer.role) {kind : ArtifactKind}
    (hMem : .store kind ∈ own.course) : .store kind ∉ peer.course := by
  intro hPeer
  have hOwner := h.owned kind hMem
  rw [h'.owned kind hPeer] at hOwner
  exact hRoles (Option.some.inj hOwner).symm

theorem Fits.fetched {own : Conduct D S L ρ} {peer : Conduct D S' L' ρ} {setting : Setting D}
    (h : own.Fits peer setting) (kind : ArtifactKind) (hMem : .fetch kind ∈ own.course) :
    ∀ source ∈ sources kind, .store source ∈ own.course ++ peer.course :=
  h.suits.2.1 _ hMem

/-- Only what has been fetched before is watched, and it is the other one's. -/
theorem Fits.watched {own : Conduct D S L ρ} {peer : Conduct D S' L' ρ} {setting : Setting D}
    (h : own.Fits peer setting) (i : Nat) (kind : ArtifactKind)
    (hAt : own.course[i]? = some (.watch kind)) :
    .fetch kind ∈ own.course.take i ∧ .store kind ∈ peer.course := by
  obtain ⟨hLt, hErrand⟩ := List.getElem?_eq_some_iff.mp hAt
  have hPrepared := h.suits.2.2 i hLt
  rwa [hErrand] at hPrepared

/-- A party for which the relay derives keys: a fresh key, where there can be one, changes nothing
that is in use. -/
def Derives [RandomSource ρ] (own : Conduct D S L ρ) (peer : Conduct D S' L' ρ)
    (setting : Setting D) : Prop :=
  .fetch .reEncryptionKey ∈ own.course → .fetch .reEncryptionKey ∉ peer.course ∧
    (setting.feasible .privateKey → ∀ d (source : ρ), ∃ d' key after,
      Relay.Handler.derive setting.context (setting.payload d .privateKey)
          (setting.payload d .publicKey) source = .ok key after ∧
        setting.payload d' .reEncryptionKey = Artifact.encode key ∧
        (∀ kind, kind ≠ .reEncryptionKey → setting.payload d' kind = setting.payload d kind) ∧
        (∀ s, own.errand s = .fetch .reEncryptionKey → own.knows d' s = own.knows d s) ∧
        ∀ j, peer.knowsAt d' j = peer.knowsAt d j)

end Conduct

end CipherRelay.Exchange
