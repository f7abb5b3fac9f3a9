import CipherRelay.Proofs.Mailbox.Turns
import Mathlib.Data.Set.Card
/-!
What clearing leaves of a mailbox. A slot is filed once, and only under a kind that has an owner. So
the slots of a session fall into the shares of the four roles: a clear takes one share away and
nothing else, it counts what it takes, and the clears of all roles together empty the session, in
whichever order they come.
-/
namespace CipherRelay.Mailbox

/-- What a slot is filed under. -/
def Slot.key (slot : Slot) : SessionId × ArtifactKind :=
  (slot.session, slot.kind)

/-- The number that the answer to a clear gives. -/
def Reply.removed : Reply → Nat
  | .clearRole (.ok count) => count
  | _ => 0

namespace Store

/-- What is present, as a set. -/
def present (store : Store) : Set (SessionId × ArtifactKind) :=
  {key | store.isPresent key.1 key.2}

/-- The kinds that are present in a session. -/
def presentIn (store : Store) (session : SessionId) : Set ArtifactKind :=
  {kind | store.isPresent session kind}

/-- The kinds that are present in a session and belong to a role. -/
def share (store : Store) (session : SessionId) (role : Role) : Set ArtifactKind :=
  {kind | store.isPresent session kind ∧ kind.owner? = some role}

/-- Clears some roles in a session, one after another. Beside the mailbox that is left stands what
each of the clears is answered with. -/
def clearEach (store : Store) (session : SessionId) : List Role → List Reply × Store
  | [] => ([], store)
  | role :: rest =>
      let later := (store.clear session role).clearEach session rest
      ((Server.serve store (.clearRole session role)).1 :: later.1, later.2)

/-- Every slot is filed once, and under a kind that can be stored. -/
structure Sound (store : Store) : Prop where
  nodup : (store.slots.map Slot.key).Nodup
  isStored : ∀ slot ∈ store.slots, slot.kind.isStored

variable {store : Store}

theorem sound_empty : empty.Sound where
  nodup := List.nodup_nil
  isStored _ hMem := by cases hMem

/-- A mailbox stays sound where slots are taken out. -/
theorem Sound.filter (h : store.Sound) (p : Slot → Bool) :
    (⟨store.slots.filter p⟩ : Store).Sound where
  nodup := h.nodup.sublist (List.filter_sublist.map Slot.key)
  isStored slot hMem := h.isStored slot (List.mem_of_mem_filter hMem)

/-- Clearing leaves some of the slots, each as it was. -/
theorem Sound.cleared (h : store.Sound) (session : SessionId) (role : Role) :
    (store.clear session role).Sound :=
  h.filter _

/-- Storing replaces a slot of the same name, so none is there twice. -/
theorem Sound.put (h : store.Sound) {after : Store} {session : SessionId} {kind : ArtifactKind}
    {payload : Bytes} (hPut : store.put session kind payload = .ok after) : after.Sound := by
  unfold Store.put at hPut
  split at hPut
  case isFalse => cases hPut
  case isTrue hKind =>
    cases hPut
    have hRest := h.filter fun slot => !(slot.session = session ∧ slot.kind = kind)
    constructor
    · -- The slots under the new one's key have been taken out before it is filed.
      rw [List.map_cons, List.nodup_cons]
      refine ⟨fun hMem => ?_, hRest.nodup⟩
      obtain ⟨slot, hSlot, hKey⟩ := List.mem_map.mp hMem
      have hOther := (List.mem_filter.mp hSlot).2
      obtain ⟨hSession, hSame⟩ := Prod.mk.inj hKey
      simp [hSession, hSame] at hOther
    · intro slot hMem
      rcases List.mem_cons.mp hMem with rfl | hOld
      · exact hKind
      · exact hRest.isStored slot hOld

/-- One request. -/
theorem Sound.after (h : store.Sound) (request : Request) : (store.after request).Sound := by
  cases request with
  | store session kind payload =>
      simp only [Store.after]
      split
      · exact h.put (by assumption)
      · exact h
  | clearRole session role => exact h.cleared session role
  | fetch _ _ | fetchMany _ _ | shutdown => exact h

/-- Any requests. -/
theorem Sound.foldl (h : store.Sound) (requests : List Request) :
    (requests.foldl Store.after store).Sound := by
  induction requests generalizing store with
  | nil => exact h
  | cons request rest ih => exact ih (h.after request)

/-- A kind is present in a session when a slot has both names. -/
theorem isPresent_iff {session : SessionId} {kind : ArtifactKind} :
    store.isPresent session kind ↔ (session, kind) ∈ store.slots.map Slot.key := by
  simp [isPresent, get?, Slot.key]

/-- Of the slots, those with a property are as many as the keys with it that are present. -/
theorem Sound.length_filter (h : store.Sound) (p : SessionId × ArtifactKind → Bool) :
    (store.slots.filter fun slot => p slot.key).length = {key ∈ store.present | p key}.ncard := by
  have hKeys : {key ∈ store.present | p key} =
      ↑((store.slots.map Slot.key).filter p).toFinset := by
    ext key
    simp [present, isPresent_iff]
  rw [hKeys, Set.ncard_coe_finset, List.toFinset_card_of_nodup (h.nodup.filter p),
    List.filter_map, List.length_map]
  rfl

/-- The size counts the present slots, each once. -/
theorem Sound.size_eq (h : store.Sound) :
    store.present.Finite ∧ store.size = store.present.ncard := by
  constructor
  · refine (List.finite_toSet (store.slots.map Slot.key)).subset fun key hKey => ?_
    exact isPresent_iff.mp hKey
  · simpa [size] using h.length_filter fun _ => true

/-- Of the slots of a session, those with a property are as many as the kinds with it that are
present there. -/
theorem Sound.length_filter_session (h : store.Sound) (session : SessionId)
    (p : ArtifactKind → Bool) :
    (store.slots.filter fun slot => slot.session = session ∧ p slot.kind).length =
      {kind ∈ store.presentIn session | p kind}.ncard := by
  have hImage : {key ∈ store.present | decide (key.1 = session ∧ p key.2)} =
      Prod.mk session '' {kind ∈ store.presentIn session | p kind} := by
    ext ⟨s, kind⟩
    grind [present, presentIn]
  have hCount := h.length_filter fun key => key.1 = session ∧ p key.2
  rwa [hImage, Set.ncard_image_of_injective _ (Prod.mk_right_injective session)] at hCount

/-- A clear takes away the share of the role, and as many slots as it says. -/
theorem Sound.serve_clearRole (h : store.Sound) (session : SessionId) (role : Role) :
    Server.serve store (.clearRole session role) =
        (.clearRole (.ok (store.share session role).ncard), .running (store.clear session role)) ∧
      (store.share session role).ncard + (store.clear session role).size = store.size := by
  have hShare : (store.slots.filter fun slot => slot.session = session ∧
      slot.kind.owner? = some role).length = (store.share session role).ncard := by
    simpa [share, presentIn] using
      h.length_filter_session session fun kind => kind.owner? = some role
  have hSplit :
      (store.share session role).ncard + (store.clear session role).size = store.size := by
    rw [← hShare, size, size, clear, eq_comm]
    exact List.length_eq_length_filter_add _
  refine ⟨?_, hSplit⟩
  rw [Server.serve, ← hSplit, Nat.add_sub_cancel_right]

/-- Clears take away the shares of their roles. -/
theorem slots_clearEach (store : Store) (session : SessionId) (roles : List Role) :
    (store.clearEach session roles).2.slots =
      store.slots.filter fun slot =>
        !(slot.session = session ∧ ∃ role ∈ roles, slot.kind.owner? = some role) := by
  induction roles generalizing store with
  | nil => simp [clearEach]
  | cons role rest ih =>
      rw [clearEach, ih, clear, List.filter_filter]
      congr 1
      funext slot
      grind

/-- Clears one after another take away as many slots as they say together. -/
theorem Sound.size_clearEach (h : store.Sound) (session : SessionId) (roles : List Role) :
    ((store.clearEach session roles).1.map Reply.removed).sum +
      (store.clearEach session roles).2.size = store.size := by
  induction roles generalizing store with
  | nil => simp [clearEach]
  | cons role rest ih =>
      obtain ⟨hServe, hSplit⟩ := h.serve_clearRole session role
      have hRest := ih (h.cleared session role)
      simp only [clearEach, hServe, List.map_cons, List.sum_cons, Reply.removed]
      omega

/-- Clears of any roles in any sessions commute. -/
theorem clear_comm (store : Store) (session : SessionId) (role : Role) (s : SessionId) (r : Role) :
    (store.clear session role).clear s r = (store.clear s r).clear session role := by
  simp only [clear, List.filter_filter, Bool.and_comm]

/-- Clears of roles that own all that is present in a session leave the other sessions. -/
theorem Sound.slots_exhausted (h : store.Sound) (session : SessionId) {roles : List Role}
    (hAll : ∀ role, role ∈ roles) : (store.clearEach session roles).2.slots =
      store.slots.filter fun slot => !(slot.session = session) := by
  rw [slots_clearEach]
  refine List.filter_congr fun slot hMem => ?_
  obtain ⟨role, hOwner⟩ := Option.isSome_iff_exists.mp (h.isStored slot hMem)
  simp [hOwner, hAll]

/-- What clears of all roles in a session count adds up to what has been there. -/
theorem Sound.sum_removed (h : store.Sound) (session : SessionId) {roles : List Role}
    (hAll : ∀ role, role ∈ roles) :
    ((store.clearEach session roles).1.map Reply.removed).sum =
      (store.presentIn session).ncard := by
  have hHere : (store.slots.filter fun slot => slot.session = session).length =
      (store.presentIn session).ncard := by
    simpa [presentIn] using h.length_filter_session session fun _ => true
  have hLeft : (store.clearEach session roles).2.size =
      (store.slots.filter fun slot => !(slot.session = session)).length := by
    rw [size, h.slots_exhausted session hAll]
  have hAdded := h.size_clearEach session roles
  have hSplit : store.size = (store.slots.filter fun slot => slot.session = session).length +
      (store.slots.filter fun slot => !(slot.session = session)).length :=
    List.length_eq_length_filter_add _
  omega

/-- What a mailbox is to the roles whose artifacts it keeps. -/
structure IsPartitioned (store : Store) : Prop where
  /-- The size is the number of slots that are present. -/
  counts : store.present.Finite ∧ store.size = store.present.ncard
  /-- Only kinds with an owner are present. -/
  owned : ∀ session kind, store.isPresent session kind → ∃ role, kind.owner? = some role
  /-- A clear empties the slots of its session whose kind the role owns, and no other slot. -/
  clears : ∀ session role s kind, (store.clear session role).get? s kind =
    if session = s ∧ kind.owner? = some role then none else store.get? s kind
  /-- It is answered with the number of slots that it has emptied. -/
  answers : ∀ session role, Server.serve store (.clearRole session role) =
    (.clearRole (.ok (store.share session role).ncard), .running (store.clear session role))
  /-- The same clear once more finds nothing and changes nothing. -/
  again : ∀ session role, Server.serve (store.clear session role) (.clearRole session role) =
    (.clearRole (.ok 0), .running (store.clear session role))
  /-- The order of clears does not matter. -/
  commutes : ∀ session role s r,
    (store.clear session role).clear s r = (store.clear s r).clear session role
  /-- Clears of all roles in a session, in any order, leave nothing there and everything elsewhere,
  and what they count adds up to what has been there. -/
  exhausts : ∀ session (order : List Role), order.Perm Role.all →
    (∀ kind, (store.clearEach session order).2.get? session kind = none) ∧
    (∀ s kind, s ≠ session →
      (store.clearEach session order).2.get? s kind = store.get? s kind) ∧
    ((store.clearEach session order).1.map Reply.removed).sum = (store.presentIn session).ncard
  /-- Just what has no owner is refused, and that changes nothing. -/
  refuses : ∀ session kind payload,
    if kind.owner? = none then Server.serve store (.store session kind payload) =
      (.store (.error (.notStorable kind)), .running store)
    else (Server.serve store (.store session kind payload)).1 = .store (.ok ())
  /-- Several slots looked at together are what they are one by one. -/
  agrees : ∀ session kinds, store.fetchMany session kinds =
    kinds.map fun kind => (store.fetch session kind).toOption

/-- Whatever has been asked of a mailbox since it was empty, its slots are partitioned by their
owners, and clearing takes the parts away one by one. -/
theorem clearing_partitions (requests : List Request) :
    (requests.foldl after empty).IsPartitioned := by
  have hSound : (requests.foldl after empty).Sound := sound_empty.foldl requests
  generalize requests.foldl after empty = store at hSound
  constructor
  case counts => exact hSound.size_eq
  case owned =>
    intro session kind hPresent
    obtain ⟨slot, hMem, hKey⟩ := List.mem_map.mp (isPresent_iff.mp hPresent)
    obtain ⟨-, rfl⟩ := Prod.mk.inj hKey
    exact Option.isSome_iff_exists.mp (hSound.isStored slot hMem)
  case clears => exact store.get?_clear
  case answers => exact fun session role => (hSound.serve_clearRole session role).1
  case again =>
    intro session role
    have hCleared : (store.clear session role).clear session role = store.clear session role := by
      simp [clear, List.filter_filter]
    rw [Server.serve, hCleared, Nat.sub_self]
  case commutes => exact store.clear_comm
  case exhausts =>
    intro session order hOrder
    have hAll : ∀ role, role ∈ order := by
      intro role
      rw [hOrder.mem_iff]
      cases role <;> decide
    refine ⟨fun kind => ?_, fun s kind hOther => ?_, hSound.sum_removed session hAll⟩
    · rw [get?, hSound.slots_exhausted session hAll, Option.map_eq_none_iff, List.find?_filter,
        List.find?_eq_none]
      simp +contextual
    · simp only [get?, hSound.slots_exhausted session hAll, List.find?_filter]
      congr 2
      funext slot
      grind
  case refuses =>
    intro session kind payload
    cases hOwner : kind.owner? <;>
      simp [Server.serve, put, ArtifactKind.isStored, hOwner]
  case agrees =>
    intro session kinds
    refine List.map_congr_left fun kind _ => ?_
    rw [fetch]
    cases store.get? session kind <;> rfl

end Store

end CipherRelay.Mailbox
