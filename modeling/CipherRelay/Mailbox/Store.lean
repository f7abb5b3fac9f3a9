import CipherRelay.Artifact.Message
/-!
The mailbox of the relay. A slot belongs to a session and a kind of artifact, and it is absent or
holds one complete payload; storing again replaces it. Two kinds are never stored, because the relay
serves them itself.
-/
namespace CipherRelay.Mailbox

/-- Why the mailbox refuses. -/
inductive StoreError
  | notStorable (kind : ArtifactKind)
  | artifactNotReady (kind : ArtifactKind)
  | storeShutdown
  | unexpectedResponse
  deriving DecidableEq, Repr

namespace StoreError

/-- The name of the kind of error. -/
def name : StoreError → String
  | .notStorable _ => "NotStorable"
  | .artifactNotReady _ => "ArtifactNotReady"
  | .storeShutdown => "StoreShutdown"
  | .unexpectedResponse => "UnexpectedResponse"

/-- The wording of an error. -/
def message : StoreError → String
  | .notStorable kind => "Storage: " ++ kind.text ++ " is served by the relay and cannot be stored"
  | .artifactNotReady kind => "Storage: " ++ kind.text ++ " is not present"
  | .storeShutdown => "Storage: store server is gone"
  | .unexpectedResponse => "Storage: unexpected response for this type of op"

/-- The JSON form of an error. -/
def write (error : StoreError) : Json :=
  match error with
  | .notStorable kind | .artifactNotReady kind => .variant error.name (toJson kind)
  | .storeShutdown | .unexpectedResponse => .bareVariant error.name

/-- The error of a JSON form. -/
def read? (value : Json) : Option StoreError :=
  match value.variant? with
  | some ("NotStorable", some kind) => (ofJson? kind).map notStorable
  | some ("ArtifactNotReady", some kind) => (ofJson? kind).map artifactNotReady
  | _ => value.bareVariant?.bind (named? name [storeShutdown, unexpectedResponse])

end StoreError

instance : Artifact StoreError := ⟨StoreError.write, StoreError.read?⟩

/-- A payload filed under its session and kind. -/
structure Slot where
  session : SessionId
  kind : ArtifactKind
  payload : Bytes
  deriving DecidableEq

/-- The slots that are present. -/
structure Store where
  slots : List Slot := []
  deriving DecidableEq

namespace Store

/-- No slot at all. -/
def empty : Store := {}

/-- The payload of a slot. -/
def get? (store : Store) (session : SessionId) (kind : ArtifactKind) : Option Bytes :=
  (store.slots.find? fun slot => slot.session = session ∧ slot.kind = kind).map (·.payload)

/-- Fills a slot, whatever it held before. -/
def put (store : Store) (session : SessionId) (kind : ArtifactKind) (payload : Bytes) :
    Except StoreError Store :=
  if kind.isStored then
    .ok ⟨⟨session, kind, payload⟩ ::
      store.slots.filter fun slot => !(slot.session = session ∧ slot.kind = kind)⟩
  else .error (.notStorable kind)

/-- The payload of a slot, or the error that it is absent. -/
def fetch (store : Store) (session : SessionId) (kind : ArtifactKind) : Except StoreError Bytes :=
  match store.get? session kind with
  | some payload => .ok payload
  | none => .error (.artifactNotReady kind)

/-- Several slots of one session, looked at together. -/
def fetchMany (store : Store) (session : SessionId) (kinds : List ArtifactKind) :
    List (Option Bytes) :=
  kinds.map (store.get? session)

/-- Removes every slot that a role owns in a session. -/
def clear (store : Store) (session : SessionId) (role : Role) : Store :=
  ⟨store.slots.filter fun slot => !(slot.session = session ∧ slot.kind.owner? = some role)⟩

/-- How many slots are present. -/
def size (store : Store) : Nat :=
  store.slots.length

/-- Whether a slot is present. -/
def isPresent (store : Store) (session : SessionId) (kind : ArtifactKind) : Bool :=
  (store.get? session kind).isSome

/-- Filling a slot changes that slot only. -/
theorem get?_put {store after : Store} {session : SessionId} {kind : ArtifactKind}
    {payload : Bytes} (h : store.put session kind payload = .ok after) (s : SessionId)
    (k : ArtifactKind) :
    after.get? s k = if session = s ∧ kind = k then some payload else store.get? s k := by
  unfold put at h
  split at h
  · cases h
    by_cases hSame : session = s ∧ kind = k
    · simp [get?, hSame]
    · simp only [get?, List.find?_cons, hSame, decide_false, if_false, List.find?_filter]
      congr 2
      funext slot
      grind
  · cases h

/-- Clearing a role empties its slots of the session and no others. -/
theorem get?_clear (store : Store) (session : SessionId) (role : Role) (s : SessionId)
    (k : ArtifactKind) :
    (store.clear session role).get? s k =
      if session = s ∧ k.owner? = some role then none else store.get? s k := by
  by_cases hCleared : session = s ∧ k.owner? = some role
  · simp only [get?, clear, hCleared, List.find?_filter]
    simp
    grind
  · simp only [get?, clear, hCleared, if_false, List.find?_filter]
    congr 2
    funext slot
    grind

end Store

end CipherRelay.Mailbox
