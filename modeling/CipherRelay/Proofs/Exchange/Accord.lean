import CipherRelay.Proofs.Exchange.Course
/-!
Courses in accord. Two courses may each be fine and yet not go together: both parties might wait for
what the other one has not handed over yet, or one might take leave while the other still needs
something. All of this can be read off the two lists of errands.
-/
namespace CipherRelay.Exchange

namespace Errand

/-- Whether an errand fetches nothing and has a message. -/
def Closing : Errand → Prop
  | store _ | watch _ => True
  | greeting | context | fetch _ => False

instance (errand : Errand) : Decidable errand.Closing :=
  match errand with
  | .store _ | .watch _ => inferInstanceAs (Decidable True)
  | .greeting | .context | .fetch _ => inferInstanceAs (Decidable False)

def Watches : Errand → Prop
  | watch _ => True
  | _ => False

instance (errand : Errand) : Decidable errand.Watches :=
  match errand with
  | .watch _ => inferInstanceAs (Decidable True)
  | .greeting | .context | .store _ | .fetch _ => inferInstanceAs (Decidable False)

/-- What is watched is not met while the other one is there. -/
theorem not_met_of_watches {errand : Errand} (h : errand.Watches) (given : List Errand) :
    ¬errand.Met given false := by
  cases errand with
  | watch kind => exact Bool.false_ne_true
  | _ => exact h.elim

end Errand

/-- Whether a party releases the other one when it has done all its errands: by then the other one
has nothing left to fetch. The last errand that the relay has answered may not have been heard
yet. -/
def Releases (own peer : Course) : Prop :=
  ∀ n ≤ peer.length, (∀ errand ∈ own, errand.Met (own ++ peer.take n) false) →
    ∀ errand ∈ peer.drop (n - 1), errand.Closing

instance (own peer : Course) : Decidable (Releases own peer) :=
  inferInstanceAs (Decidable (∀ n ≤ peer.length, _))

/-- Two courses that go together: wherever both parties are, one of them can go on, each of them
releases the other one, and the second one stays until the first one has left. -/
structure Accord (own peer : Course) : Prop where
  unblocked : ∀ i (h : i < own.length) j (h' : j < peer.length),
    own[i].Met (own.take i ++ peer.take j) false ∨ peer[j].Met (own.take i ++ peer.take j) false
  releases : Releases own peer
  releases' : Releases peer own
  watches : ∃ errand ∈ peer, errand.Watches

instance (own peer : Course) : Decidable (Accord own peer) :=
  decidable_of_iff ((∀ i (h : i < own.length) j (h' : j < peer.length),
      own[i].Met (own.take i ++ peer.take j) false ∨
        peer[j].Met (own.take i ++ peer.take j) false) ∧
      Releases own peer ∧ Releases peer own ∧ ∃ errand ∈ peer, errand.Watches)
    ⟨fun ⟨h, h', h'', h'''⟩ => ⟨h, h', h'', h'''⟩,
      fun ⟨h, h', h'', h'''⟩ => ⟨h, h', h'', h'''⟩⟩

variable {own peer : Course} {mark mark' : Mark}

/-- When a party has done all its errands, the other one has nothing left to fetch, unless it has
left. -/
theorem Releases.closing (h : Releases own peer) (hEarned : Earned own peer mark mark')
    (hDone : mark.done own = own.length) (hDone' : mark'.done peer ≤ peer.length)
    (hStays : mark'.gone = false) {later : Mark} (hFollows : mark'.Follows peer later) {i : Nat}
    (hPlace : later.place peer = i) {errand : Errand} (hAt : peer[i]? = some errand) :
    errand.Closing := by
  refine h _ hDone' (fun other hMem => ?_) errand ?_
  · have hMet := hEarned other (by rwa [hDone, List.take_length])
    rwa [given, hDone, List.take_length, hStays] at hMet
  · -- The relay has answered at most one errand more than the party has heard of.
    have hLater := Nat.le_trans hFollows.1 (later.done_le_place peer)
    have hFrom : (mark'.done peer - 1) + (i - (mark'.done peer - 1)) = i := by omega
    refine List.mem_of_getElem? (i := i - (mark'.done peer - 1)) ?_
    rw [List.getElem?_drop, hFrom, hAt]

/-- Where both parties are still there, the errand of one of them can succeed. -/
theorem Accord.unblocked_of_place (h : Accord own peer) {errand errand' : Errand}
    (hAt : own[mark.place own]? = some errand) (hAt' : peer[mark'.place peer]? = some errand') :
    errand.Met (given own peer mark mark') false ∨
      errand'.Met (given own peer mark mark') false := by
  obtain ⟨hLt, rfl⟩ := List.getElem?_eq_some_iff.mp hAt
  obtain ⟨hLt', rfl⟩ := List.getElem?_eq_some_iff.mp hAt'
  have hGiven : own.take (mark.place own) ++ peer.take (mark'.place peer) ⊆
      given own peer mark mark' := by
    intro errand hMem
    rcases List.mem_append.mp hMem with hOwn | hPeer
    · exact List.mem_append_left _
        (List.take_subset_take_left own (mark.place_le_done own) hOwn)
    · exact List.mem_append_right _
        (List.take_subset_take_left peer (mark'.place_le_done peer) hPeer)
  exact (h.unblocked _ hLt _ hLt').imp (fun hMet => hMet.mono hGiven id)
    fun hMet => hMet.mono hGiven id

/-- A party that has done its errands and watched the other one knows that it has left. -/
theorem Earned.gone_of_watches (h : Earned own peer mark mark') (hDone : mark.done own = own.length)
    (hWatches : ∃ errand ∈ own, errand.Watches) : mark'.gone := by
  obtain ⟨errand, hMem, hWatches⟩ := hWatches
  cases hStays : mark'.gone with
  | true => rfl
  | false =>
      have hMet := h errand (by rwa [hDone, List.take_length])
      rw [hStays] at hMet
      exact absurd hMet (Errand.not_met_of_watches hWatches _)

end CipherRelay.Exchange
