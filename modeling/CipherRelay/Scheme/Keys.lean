import CipherRelay.Scheme.Residues
/-!
The objects of the scheme. A ciphertext `(c0, c1)` decrypts under the secret `s` as `c0 + c1 * s`, a
public key is an encryption of zero in this sense, and a switching key `(alpha, beta)` satisfies
`alpha + beta * s = x` for the secret `x` that it switches away from.
-/
namespace CipherRelay.Scheme

structure PublicKey where
  p0 : Residues
  p1 : Residues
  deriving DecidableEq, Repr

structure PrivateKey where
  s : Residues
  deriving DecidableEq, Repr

structure KeyPair where
  publicKey : PublicKey
  privateKey : PrivateKey
  deriving DecidableEq, Repr

/-- A key that switches a ciphertext to another secret. -/
structure SwitchKey where
  alpha : Residues
  beta : Residues
  deriving DecidableEq, Repr

structure Ciphertext where
  c0 : Residues
  c1 : Residues
  deriving DecidableEq, Repr

/-- One party's share of a joint decryption. -/
structure Share where
  share : Residues
  deriving DecidableEq, Repr

/-- A map from rotations to switching keys, with one key at most for each rotation and the rotations
in increasing order. -/
structure RotationKeys where
  entries : List (UInt64 × SwitchKey) := []
  increasing : entries.Pairwise (fun e f => e.1 < f.1) := by simp
  deriving DecidableEq

namespace RotationKeys

/-- Puts an entry into its place among entries in increasing order, over the one it replaces. -/
def place (rotation : UInt64) (key : SwitchKey) :
    List (UInt64 × SwitchKey) → List (UInt64 × SwitchKey)
  | [] => [(rotation, key)]
  | entry :: rest =>
      if entry.1 < rotation then entry :: place rotation key rest
      else if rotation < entry.1 then (rotation, key) :: entry :: rest
      else (rotation, key) :: rest

/-- Placing an entry brings in no other. -/
theorem mem_place {rotation : UInt64} {key : SwitchKey} {entries : List (UInt64 × SwitchKey)}
    {entry : UInt64 × SwitchKey} (h : entry ∈ place rotation key entries) :
    entry = (rotation, key) ∨ entry ∈ entries := by
  induction entries with
  | nil => simpa [place] using h
  | cons first rest ih =>
      rw [place] at h
      split at h
      · rcases List.mem_cons.mp h with h | h
        · exact .inr (by simp [h])
        · rcases ih h with h | h
          · exact .inl h
          · exact .inr (by simp [h])
      · split at h
        · rcases List.mem_cons.mp h with h | h
          · exact .inl h
          · exact .inr h
        · rcases List.mem_cons.mp h with h | h
          · exact .inl h
          · exact .inr (by simp [h])

/-- Placing an entry keeps the order. -/
theorem pairwise_place (rotation : UInt64) (key : SwitchKey)
    {entries : List (UInt64 × SwitchKey)} (h : entries.Pairwise (fun e f => e.1 < f.1)) :
    (place rotation key entries).Pairwise (fun e f => e.1 < f.1) := by
  induction entries with
  | nil => simp [place]
  | cons first rest ih =>
      obtain ⟨hFirst, hRest⟩ := List.pairwise_cons.mp h
      rw [place]
      split
      case isTrue hBelow =>
        refine List.pairwise_cons.mpr ⟨fun entry hMem => ?_, ih hRest⟩
        rcases mem_place hMem with rfl | hMem
        · exact hBelow
        · exact hFirst entry hMem
      case isFalse hNotBelow =>
        split
        case isTrue hAbove =>
          refine List.pairwise_cons.mpr ⟨fun entry hMem => ?_, h⟩
          rcases List.mem_cons.mp hMem with rfl | hMem
          · exact hAbove
          · exact UInt64.lt_trans hAbove (hFirst entry hMem)
        case isFalse hNotAbove =>
          have hSame : rotation = first.1 :=
            UInt64.le_antisymm (UInt64.not_lt.mp hNotBelow) (UInt64.not_lt.mp hNotAbove)
          exact List.pairwise_cons.mpr ⟨fun entry hMem => hSame ▸ hFirst entry hMem, hRest⟩

/-- No key for any rotation. -/
def empty : RotationKeys := {}

/-- The map with a key for one more rotation; an earlier key for it is replaced. -/
def insert (keys : RotationKeys) (rotation : UInt64) (key : SwitchKey) : RotationKeys :=
  ⟨place rotation key keys.entries, pairwise_place rotation key keys.increasing⟩

/-- The map of a list of entries. The last one for a rotation counts. -/
def ofList (entries : List (UInt64 × SwitchKey)) : RotationKeys :=
  entries.foldl (fun keys (rotation, key) => keys.insert rotation key) empty

/-- The key for a rotation. -/
def get? (keys : RotationKeys) (rotation : UInt64) : Option SwitchKey :=
  keys.entries.lookup rotation

end RotationKeys

instance : Artifact PublicKey where
  toJson key := .record [("p0", toJson key.p0), ("p1", toJson key.p1)]
  ofJson? value := do
    let [p0, p1] ← value.fields? ["p0", "p1"] | none
    return ⟨← ofJson? p0, ← ofJson? p1⟩

instance : Artifact PrivateKey where
  toJson key := .record [("s", toJson key.s)]
  ofJson? value := do
    let [s] ← value.fields? ["s"] | none
    return ⟨← ofJson? s⟩

instance : Artifact SwitchKey where
  toJson key := .record [("alpha", toJson key.alpha), ("beta", toJson key.beta)]
  ofJson? value := do
    let [alpha, beta] ← value.fields? ["alpha", "beta"] | none
    return ⟨← ofJson? alpha, ← ofJson? beta⟩

instance : Artifact Ciphertext where
  toJson ct := .record [("c0", toJson ct.c0), ("c1", toJson ct.c1)]
  ofJson? value := do
    let [c0, c1] ← value.fields? ["c0", "c1"] | none
    return ⟨← ofJson? c0, ← ofJson? c1⟩

instance : Artifact Share where
  toJson share := .record [("share", toJson share.share)]
  ofJson? value := do
    let [share] ← value.fields? ["share"] | none
    return ⟨← ofJson? share⟩

/-- An entry of the object of rotation keys. Its key is the numeral of the rotation, unescaped. -/
def rotationEntry? (key : Bytes) (value : Json) : Option (UInt64 × SwitchKey) := do
  let rotation ← (Json.number key).below? UInt64.size
  return (rotation.toUInt64, ← ofJson? value)

instance : Artifact RotationKeys where
  toJson keys :=
    .record [("keys", .object (keys.entries.map fun (rotation, key) =>
      (Json.digits rotation.toNat, toJson key)))]
  ofJson? value := do
    let [.object members] ← value.fields? ["keys"] | none
    let entries ← members.mapM fun (key, value) => rotationEntry? key value
    return .ofList entries

/-- The digits of a list of words between brackets. -/
def listing (v : Residues) : String :=
  "[" ++ ", ".intercalate (v.map toString) ++ "]"

/-- A text of a key pair that keeps the private key out. -/
def KeyPair.text (keys : KeyPair) : String :=
  "KeyPair \x7b public_key: ToyPublicKey \x7b p0: " ++ listing keys.publicKey.p0 ++ ", p1: " ++
    listing keys.publicKey.p1 ++ " \x7d, .. \x7d"

end CipherRelay.Scheme
