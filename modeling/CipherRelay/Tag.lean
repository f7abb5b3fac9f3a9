/-!
The names of what travels: roles, operations, artifacts, and the tags that tell messages apart.
Each name has one written form, which serves both as its text and in its encodings.
-/
namespace CipherRelay

/-- The party a message stream belongs to. Producer and consumer hand a vector over by proxy
re-encryption; Alice and Bob decrypt jointly. -/
inductive Role
  | producer
  | consumer
  | alice
  | bob
  deriving DecidableEq, Repr

namespace Role

/-- The roles in the order of their wire numbers. -/
def all : List Role := [.producer, .consumer, .alice, .bob]

/-- The written name of a role. -/
def name : Role → String
  | .producer => "Producer"
  | .consumer => "Consumer"
  | .alice => "Alice"
  | .bob => "Bob"

instance : ToString Role := ⟨name⟩

end Role

/-- A homomorphic operation of the threshold run. -/
inductive Operation
  | add
  | mult
  | sum
  deriving DecidableEq, Repr

namespace Operation

/-- The operations in the order in which they are evaluated. -/
def all : List Operation := [.add, .mult, .sum]

/-- The written name of an operation. -/
def name : Operation → String
  | .add => "Add"
  | .mult => "Mult"
  | .sum => "Sum"

instance : ToString Operation := ⟨name⟩

/-- The operation evaluated after this one. -/
def next? : Operation → Option Operation
  | .add => some .mult
  | .mult => some .sum
  | .sum => none

end Operation

/-- An artifact that can travel through the relay. The relay itself serves the first two; the
others are stored by the party that produces them. -/
inductive ArtifactKind
  | cryptoContext
  | reEncryptionKey
  | privateKey
  | publicKey
  | ciphertext
  | vecInt
  | rnd1PubKey
  | rnd1EvalMultKey
  | rnd1EvalSumKeys
  | rnd2SharedKey
  | rnd2EvalMultAB
  | rnd2EvalMultBAB
  | rnd2EvalSumKeysJoin
  | rnd3EvalMultFinal
  | ct1
  | ct2
  | ct3
  | partialLead (operation : Operation)
  | partialMain (operation : Operation)
  deriving DecidableEq, Repr

namespace ArtifactKind

/-- The kinds that carry no operation, in the order of their wire numbers. -/
def simple : List ArtifactKind :=
  [.cryptoContext, .reEncryptionKey, .privateKey, .publicKey, .ciphertext, .vecInt,
    .rnd1PubKey, .rnd1EvalMultKey, .rnd1EvalSumKeys,
    .rnd2SharedKey, .rnd2EvalMultAB, .rnd2EvalMultBAB, .rnd2EvalSumKeysJoin,
    .rnd3EvalMultFinal, .ct1, .ct2, .ct3]

/-- The written name of a kind, without its operation. -/
def name : ArtifactKind → String
  | .cryptoContext => "CryptoContext"
  | .reEncryptionKey => "ReEncryptionKey"
  | .privateKey => "PrivateKey"
  | .publicKey => "PublicKey"
  | .ciphertext => "Ciphertext"
  | .vecInt => "VecInt"
  | .rnd1PubKey => "Rnd1PubKey"
  | .rnd1EvalMultKey => "Rnd1EvalMultKey"
  | .rnd1EvalSumKeys => "Rnd1EvalSumKeys"
  | .rnd2SharedKey => "Rnd2SharedKey"
  | .rnd2EvalMultAB => "Rnd2EvalMultAB"
  | .rnd2EvalMultBAB => "Rnd2EvalMultBAB"
  | .rnd2EvalSumKeysJoin => "Rnd2EvalSumKeysJoin"
  | .rnd3EvalMultFinal => "Rnd3EvalMultFinal"
  | .ct1 => "Ct1"
  | .ct2 => "Ct2"
  | .ct3 => "Ct3"
  | .partialLead _ => "PartialLead"
  | .partialMain _ => "PartialMain"

/-- The operation a partial decryption belongs to. -/
def operation? : ArtifactKind → Option Operation
  | .partialLead operation => some operation
  | .partialMain operation => some operation
  | _ => none

/-- A kind with its operation in parentheses. -/
def text (kind : ArtifactKind) : String :=
  match kind.operation? with
  | some operation => kind.name ++ "(" ++ operation.name ++ ")"
  | none => kind.name

instance : ToString ArtifactKind := ⟨text⟩

/-- The kinds a party may store. -/
def stored : List ArtifactKind :=
  [.privateKey, .publicKey, .ciphertext, .vecInt,
    .rnd1PubKey, .rnd1EvalMultKey, .rnd1EvalSumKeys,
    .rnd2SharedKey, .rnd2EvalMultAB, .rnd2EvalMultBAB, .rnd2EvalSumKeysJoin,
    .rnd3EvalMultFinal, .ct1, .ct2, .ct3] ++
  Operation.all.flatMap fun operation => [.partialLead operation, .partialMain operation]

/-- The role whose disconnect clears the slot of this kind. The artifacts that the relay serves
without storing have none. -/
def owner? : ArtifactKind → Option Role
  | .cryptoContext | .reEncryptionKey => none
  | .privateKey | .ciphertext => some .producer
  | .publicKey | .vecInt => some .consumer
  | .rnd1PubKey | .rnd1EvalMultKey | .rnd1EvalSumKeys | .rnd3EvalMultFinal
  | .partialMain _ => some .alice
  | .rnd2SharedKey | .rnd2EvalMultAB | .rnd2EvalMultBAB | .rnd2EvalSumKeysJoin
  | .ct1 | .ct2 | .ct3 | .partialLead _ => some .bob

/-- Whether a party may store this kind. -/
def isStored (kind : ArtifactKind) : Bool :=
  kind.owner?.isSome

/-- The listed kinds are those with an owner. -/
theorem mem_stored_iff (kind : ArtifactKind) : kind ∈ stored ↔ kind.isStored := by
  cases kind with
  | partialLead operation => cases operation <;> decide
  | partialMain operation => cases operation <;> decide
  | _ => decide

end ArtifactKind

/-- What a message is about. The relay sends `serverAccept` when a connection opens and `deny` when
it cannot make sense of a frame; the other tags ask for an artifact, carry it, or answer. -/
inductive Tag
  | serverAccept
  | request (kind : ArtifactKind)
  | send (kind : ArtifactKind)
  | ack (kind : ArtifactKind)
  | nack (kind : ArtifactKind)
  | disconnect (role : Role)
  | deny
  deriving DecidableEq, Repr

namespace Tag

/-- The written name of a tag, without what it is about. -/
def name : Tag → String
  | .serverAccept => "ServerAccept"
  | .request _ => "Request"
  | .send _ => "Send"
  | .ack _ => "Ack"
  | .nack _ => "Nack"
  | .disconnect _ => "Disconnect"
  | .deny => "Deny"

/-- The artifact a tag talks about. -/
def artifact? : Tag → Option ArtifactKind
  | .request kind | .send kind | .ack kind | .nack kind => some kind
  | .serverAccept | .disconnect _ | .deny => none

/-- A tag with what it is about in parentheses. -/
def text (tag : Tag) : String :=
  match tag with
  | .serverAccept | .deny => tag.name
  | .request kind | .send kind | .ack kind | .nack kind => tag.name ++ "(" ++ kind.text ++ ")"
  | .disconnect role => tag.name ++ "(" ++ role.name ++ ")"

instance : ToString Tag := ⟨text⟩

end Tag

end CipherRelay
