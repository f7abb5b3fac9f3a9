import CipherRelay.Exchange.Basic
import CipherRelay.Proofs.Relay.Dispatch
/-!
Courses. In each state a party has one errand with the relay: it stores an artifact, or asks for one
until it is there, or until it is gone. The course of a party is the list of its errands. How far
two parties are in their courses decides which artifacts are in the mailbox, and no party gets
further than the other one has supplied it.
-/
namespace CipherRelay.Exchange

/-- What a party wants from the relay while it waits in one state. -/
inductive Errand
  /-- Waits for the relay's greeting. -/
  | greeting
  /-- Asks for the context of the relay. -/
  | context
  /-- Hands an artifact over. -/
  | store (kind : ArtifactKind)
  /-- Asks for an artifact until it is there. -/
  | fetch (kind : ArtifactKind)
  /-- Asks for an artifact until it is gone. -/
  | watch (kind : ArtifactKind)
  deriving DecidableEq

/-- The slots that the relay looks at when it is asked for an artifact. -/
def sources : ArtifactKind → List ArtifactKind
  | .reEncryptionKey => [.privateKey, .publicKey]
  | kind => [kind]

theorem sources_of_isStored {kind : ArtifactKind} (h : kind.isStored) : sources kind = [kind] := by
  cases kind <;> first | rfl | cases h

namespace Errand

def trigger : Errand → Tag
  | greeting => .serverAccept
  | context => .send .cryptoContext
  | store kind => .ack kind
  | fetch kind => .send kind
  | watch kind => .nack kind

def retryOn : Errand → Option Tag
  | greeting | context | store _ => none
  | fetch kind => some (.nack kind)
  | watch kind => some (.send kind)

/-- The message that the party sends. -/
def message? (payload : ArtifactKind → Bytes) : Errand → Option Message
  | greeting => none
  | context => some (.request .cryptoContext)
  | store kind => some (.send kind (payload kind))
  | fetch kind | watch kind => some (.request kind)

/-- The answer on which the party goes on. -/
def answer (cc : Scheme.Context) (payload : ArtifactKind → Bytes) : Errand → Message
  | greeting => .bare .serverAccept
  | context => .send .cryptoContext (Artifact.encode cc)
  | store kind => .bare (.ack kind)
  | fetch kind => .send kind (payload kind)
  | watch kind => .bare (.nack kind)

/-- The answer to an errand is what its step waits for. -/
theorem tag_answer (cc : Scheme.Context) (payload : ArtifactKind → Bytes) (errand : Errand) :
    (errand.answer cc payload).tag = errand.trigger := by
  cases errand <;> rfl

/-- What makes a participant ask again is not what it waits for. -/
theorem ne_trigger_of_retryOn {errand : Errand} {tag : Tag} (h : errand.retryOn = some tag) :
    tag ≠ errand.trigger := by
  cases errand with
  | greeting | context | store => cases h
  | fetch | watch =>
      cases h
      simp [trigger]

/-- Whether an errand succeeds, given what has been handed over so far and whether the other party
has taken leave. -/
def Met (given : List Errand) (gone : Bool) : Errand → Prop
  | fetch kind => ∀ source ∈ sources kind, store source ∈ given
  | watch _ => gone
  | _ => True

instance (given : List Errand) (gone : Bool) (errand : Errand) :
    Decidable (errand.Met given gone) :=
  match errand with
  | .fetch kind => inferInstanceAs (Decidable (∀ source ∈ sources kind, store source ∈ given))
  | .watch _ => inferInstanceAs (Decidable (gone = true))
  | .greeting | .context | .store _ => inferInstanceAs (Decidable True)

/-- An errand that can be done stays so as more is given. -/
theorem Met.mono {given later : List Errand} {gone left : Bool} {errand : Errand}
    (h : errand.Met given gone) (hGiven : given ⊆ later) (hGone : gone → left) :
    errand.Met later left := by
  cases errand with
  | fetch kind => exact fun source hMem => hGiven (h source hMem)
  | watch kind => exact hGone h
  | greeting | context | store => trivial

/-- Whether an errand hands over nothing but what a role owns. -/
def OwnedBy (role : Role) : Errand → Prop
  | store kind => kind.owner? = some role
  | _ => True

instance (role : Role) (errand : Errand) : Decidable (errand.OwnedBy role) :=
  match errand with
  | .store kind => inferInstanceAs (Decidable (kind.owner? = some role))
  | .greeting | .context | .fetch _ | .watch _ => inferInstanceAs (Decidable True)

/-- Whether an errand watches only what has been fetched before and what the other party hands
over. -/
def Prepared (before peer : List Errand) : Errand → Prop
  | watch kind => fetch kind ∈ before ∧ store kind ∈ peer
  | _ => True

instance (before peer : List Errand) (errand : Errand) : Decidable (errand.Prepared before peer) :=
  match errand with
  | .watch kind => inferInstanceAs (Decidable (fetch kind ∈ before ∧ store kind ∈ peer))
  | .greeting | .context | .store _ | .fetch _ => inferInstanceAs (Decidable True)

end Errand

abbrev Course := List Errand

/-- A course that suits a role and the course of the other party: it hands over what the role owns,
everything that it fetches is handed over by one of the two, and it watches what it has fetched. -/
def Suits (role : Role) (own peer : Course) : Prop :=
  (∀ errand ∈ own, errand.OwnedBy role) ∧ (∀ errand ∈ own, errand.Met (own ++ peer) true) ∧
    ∀ i (h : i < own.length), own[i].Prepared (own.take i) peer

instance (role : Role) (own peer : Course) : Decidable (Suits role own peer) :=
  inferInstanceAs (Decidable (_ ∧ _ ∧ _))

/-- How far a party is in its course. -/
inductive Mark
  /-- The message of an errand is on its way to the relay. -/
  | asks (i : Nat)
  /-- The answer is on its way to the party, and the party goes on when it hears it, or not. -/
  | hears (i : Nat) (succeeds : Bool)
  /-- The party has given up after such an answer. -/
  | failed (i : Nat) (succeeds : Bool)
  /-- The party has halted and takes leave. -/
  | leaves
  /-- The relay knows that the party has taken leave. -/
  | left
  deriving DecidableEq

namespace Mark

/-- At which errand a party is; behind the last one once it has halted. -/
def place (course : Course) : Mark → Nat
  | asks i | hears i _ | failed i _ => i
  | leaves | left => course.length

/-- How many errands the relay has answered with success. -/
def done (course : Course) : Mark → Nat
  | asks i => i
  | hears i succeeds | failed i succeeds => i + succeeds.toNat
  | leaves | left => course.length

def gone : Mark → Bool
  | left => true
  | _ => false

/-- A participant that waits at an errand has done all errands before it. -/
theorem place_le_done (course : Course) (mark : Mark) : mark.place course ≤ mark.done course := by
  cases mark <;> simp [place, done]

/-- At most the errand at which it waits has been done by the relay as well. -/
theorem done_le_place (course : Course) (mark : Mark) :
    mark.done course ≤ mark.place course + 1 := by
  cases mark with
  | hears i succeeds | failed i succeeds => cases succeeds <;> simp [place, done]
  | asks | leaves | left => simp [place, done]

/-- One mark is not before another. -/
def Follows (course : Course) (before after : Mark) : Prop :=
  before.done course ≤ after.done course ∧ (before.gone → after.gone)

theorem Follows.refl (course : Course) (mark : Mark) : Follows course mark mark :=
  ⟨Nat.le_refl _, id⟩

theorem Follows.trans {course : Course} {first second third : Mark}
    (h : Follows course first second) (h' : Follows course second third) :
    Follows course first third :=
  ⟨Nat.le_trans h.1 h'.1, h'.2 ∘ h.2⟩

/-- Who has left does not come back. -/
theorem Follows.eq_left {course : Course} {mark : Mark} (h : Follows course left mark) :
    mark = left := by
  cases mark with
  | left => rfl
  | _ => exact Bool.noConfusion (h.2 rfl)

/-- What the relay does to a party's mark when it takes the party's message. What a party hands over
is always accepted. -/
inductive Served (course : Course) : Mark → Mark → Prop
  | answered (i : Nat) (succeeds : Bool)
      (accepted : ∀ kind, course[i]? = some (.store kind) → succeeds = true) :
      Served course (.asks i) (.hears i succeeds)
  | leaves : Served course .leaves .left

/-- A message that the relay takes leads on along the course. -/
theorem Served.follows {course : Course} {mark next : Mark} (h : Served course mark next) :
    Follows course mark next := by
  cases h with
  | answered i succeeds accepted => exact ⟨Nat.le_add_right _ _, nofun⟩
  | leaves => exact ⟨Nat.le_refl _, fun _ => rfl⟩

/-- What hearing an answer does to a party's mark. The relay has answered no more than before. -/
structure Heard (course : Course) (mark next : Mark) : Prop where
  stays : mark.gone = false
  stays' : next.gone = false
  done : next.done course = mark.done course

theorem Heard.follows {course : Course} {mark next : Mark} (h : Heard course mark next) :
    Follows course mark next :=
  ⟨Nat.le_of_eq h.done.symm, fun hGone => absurd hGone (by simp [h.stays])⟩

/-- How the mark of the party at a seat moves in an event. -/
inductive Moves (course : Course) (i : Nat) : Event → Mark → Mark → Prop
  | stays {event : Event} (mark : Mark) (receives : event ≠ .receive i)
      (serves : event ≠ .serve i) : Moves course i event mark mark
  | heard {mark next : Mark} (h : Heard course mark next) : Moves course i (.receive i) mark next
  | served {mark next : Mark} (h : Served course mark next) : Moves course i (.serve i) mark next

/-- No event leads back on the course. -/
theorem Moves.follows {course : Course} {i : Nat} {event : Event} {mark next : Mark}
    (h : Moves course i event mark next) : Follows course mark next := by
  cases h with
  | stays => exact .refl _ _
  | heard h => exact h.follows
  | served h => exact h.follows

/-- A party has left exactly when the relay has taken its leave. -/
theorem Moves.eq_left_iff {course : Course} {i : Nat} {event : Event} {mark next : Mark}
    (h : Moves course i event mark next) :
    next = .left ↔ mark = .left ∨ event = .serve i ∧ mark = .leaves := by
  cases h with
  | stays mark receives serves => simp [serves]
  | heard h =>
      obtain ⟨hStays, hStays', -⟩ := h
      have hHere : mark ≠ .left := by rintro rfl; cases hStays
      have hHere' : next ≠ .left := by rintro rfl; cases hStays'
      simp [hHere, hHere']
  | served h => cases h <;> simp

end Mark

/-- What two parties have handed over. -/
def given (own peer : Course) (mark mark' : Mark) : List Errand :=
  own.take (mark.done own) ++ peer.take (mark'.done peer)

theorem mem_given_comm (own peer : Course) {mark mark' : Mark} {errand : Errand} :
    errand ∈ given own peer mark mark' ↔ errand ∈ given peer own mark' mark := by
  rw [given, given, List.mem_append, List.mem_append, or_comm]

/-- What has been given is not taken away as the two go on. -/
theorem given_subset {own peer : Course} {mark mark' after after' : Mark}
    (h : mark.Follows own after) (h' : mark'.Follows peer after') :
    given own peer mark mark' ⊆ given own peer after after' := by
  intro errand hMem
  rcases List.mem_append.mp hMem with hOwn | hPeer
  · exact List.mem_append_left _ (List.take_subset_take_left own h.1 hOwn)
  · exact List.mem_append_right _ (List.take_subset_take_left peer h'.1 hPeer)

/-- Every errand that a party has done could succeed. -/
def Earned (own peer : Course) (mark mark' : Mark) : Prop :=
  ∀ errand ∈ own.take (mark.done own), errand.Met (given own peer mark mark') mark'.gone

/-- Where a party's progress does not change, what the other one does takes nothing away. -/
theorem Earned.follow {own peer : Course} {mark mark' after after' : Mark}
    (h : Earned own peer mark mark') (hDone : after.done own = mark.done own)
    (h' : mark'.Follows peer after') : Earned own peer after after' := by
  intro errand hMem
  rw [hDone] at hMem
  refine (h errand hMem).mono (fun other hOther => ?_) h'.2
  rcases List.mem_append.mp hOther with hOwn | hPeer
  · exact List.mem_append_left _ (hDone ▸ hOwn)
  · exact List.mem_append_right _ (List.take_subset_take_left peer h'.1 hPeer)

/-- What a party has fetched from the other one has been handed over before. -/
theorem Earned.lt_done {own peer : Course} {mark mark' : Mark} (h : Earned own peer mark mark')
    {kind : ArtifactKind} {n k : Nat} (hDone : n ≤ mark.done own)
    (hFetch : .fetch kind ∈ own.take n) (hSource : kind ∈ sources kind)
    (hOwn : .store kind ∉ own) (hPeer : .store kind ∉ peer.take k) : k < mark'.done peer := by
  have hMet := h _ (List.take_subset_take_left own hDone hFetch)
  rcases List.mem_append.mp (hMet kind hSource) with hMem | hMem
  · exact absurd (List.mem_of_mem_take hMem) hOwn
  · exact Nat.lt_of_not_le fun hLess =>
      hPeer (List.take_subset_take_left peer hLess hMem)

/-- Whether a slot is filled: its artifact has been handed over, and whoever did so is still
there. -/
def Present (own peer : Course) (mark mark' : Mark) (kind : ArtifactKind) : Prop :=
  (mark.gone = false ∧ .store kind ∈ own.take (mark.done own)) ∨
    (mark'.gone = false ∧ .store kind ∈ peer.take (mark'.done peer))

theorem Present.symm {own peer : Course} {mark mark' : Mark} {kind : ArtifactKind}
    (h : Present own peer mark mark' kind) : Present peer own mark' mark kind :=
  Or.symm h

/-- What is present has been stored by one of the two. -/
theorem Present.mem_given {own peer : Course} {mark mark' : Mark} {kind : ArtifactKind}
    (h : Present own peer mark mark' kind) : .store kind ∈ given own peer mark mark' := by
  rcases h with ⟨-, h⟩ | ⟨-, h⟩
  · exact List.mem_append_left _ h
  · exact List.mem_append_right _ h

end CipherRelay.Exchange
