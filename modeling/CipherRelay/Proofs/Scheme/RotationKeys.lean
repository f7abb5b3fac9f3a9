import CipherRelay.Scheme.Keys
/-!
Maps of rotation keys. Building a map keeps the last key that is given for a rotation, and building
it from its own entries gives the map back.
-/
namespace CipherRelay.Scheme.RotationKeys

/-- A key for a greater rotation goes to the end. -/
theorem place_of_lt {rotation : UInt64} {key : SwitchKey} {entries : List (UInt64 × SwitchKey)}
    (h : ∀ entry ∈ entries, entry.1 < rotation) :
    place rotation key entries = entries ++ [(rotation, key)] := by
  induction entries with
  | nil => rfl
  | cons first rest ih =>
      rw [place, if_pos (h first (by simp)), ih fun entry hMem => h entry (by simp [hMem])]
      rfl

/-- Entries in increasing order are inserted one behind the other. -/
theorem entries_foldl (entries : List (UInt64 × SwitchKey)) (keys : RotationKeys)
    (h : (keys.entries ++ entries).Pairwise fun e f => e.1 < f.1) :
    (entries.foldl (fun keys (rotation, key) => keys.insert rotation key) keys).entries =
      keys.entries ++ entries := by
  induction entries generalizing keys with
  | nil => simp
  | cons first rest ih =>
      obtain ⟨rotation, key⟩ := first
      have hPlaced : (keys.insert rotation key).entries = keys.entries ++ [(rotation, key)] := by
        apply place_of_lt
        intro entry hMem
        exact (List.pairwise_append.mp h).2.2 entry hMem (rotation, key) (by simp)
      rw [List.foldl_cons, ih, hPlaced]
      · simp
      · simpa [hPlaced] using h

/-- A map is made again from its entries. -/
theorem ofList_entries (keys : RotationKeys) : ofList keys.entries = keys := by
  have hEntries : (ofList keys.entries).entries = keys.entries := by
    simpa [ofList, empty] using
      entries_foldl keys.entries empty (by simpa [empty] using keys.increasing)
  cases keys
  cases hKeys : ofList _
  simp_all

theorem lookup_cons_eq (own other : UInt64) (key : SwitchKey) (rest : List (UInt64 × SwitchKey)) :
    ((own, key) :: rest).lookup other = if other = own then some key else rest.lookup other := by
  by_cases hOther : other = own
  · simp [hOther]
  · simp [List.lookup_cons, beq_eq_false_iff_ne.mpr hOther, hOther]

/-- A placed key is found, and no other one is changed. -/
theorem lookup_place (rotation : UInt64) (key : SwitchKey) (entries : List (UInt64 × SwitchKey))
    (other : UInt64) :
    (place rotation key entries).lookup other =
      if other = rotation then some key else entries.lookup other := by
  induction entries with
  | nil => simp [place, lookup_cons_eq]
  | cons first rest ih =>
      obtain ⟨own, old⟩ := first
      rw [place]
      split
      case isTrue hBelow =>
        have hOwn : own ≠ rotation := UInt64.ne_of_lt hBelow
        simp only [lookup_cons_eq, ih]
        by_cases hOther : other = own
        · simp [hOther, hOwn]
        · simp [hOther]
      case isFalse hNotBelow =>
        split
        case isTrue hAbove => simp [lookup_cons_eq]
        case isFalse hNotAbove =>
          obtain rfl : rotation = own :=
            UInt64.le_antisymm (UInt64.not_lt.mp hNotBelow) (UInt64.not_lt.mp hNotAbove)
          simp only [lookup_cons_eq]
          split <;> rfl

theorem get?_insert (keys : RotationKeys) (rotation : UInt64) (key : SwitchKey) (other : UInt64) :
    (keys.insert rotation key).get? other =
      if other = rotation then some key else keys.get? other :=
  lookup_place rotation key keys.entries other

/-- The map of one key for each rotation of a list. -/
theorem get?_ofList_map (f : UInt64 → SwitchKey) (rotations : List UInt64) (other : UInt64) :
    (ofList (rotations.map fun rotation => (rotation, f rotation))).get? other =
      if other ∈ rotations then some (f other) else none := by
  have hFold : ∀ keys : RotationKeys,
      ((rotations.map fun rotation => (rotation, f rotation)).foldl
        (fun keys (rotation, key) => keys.insert rotation key) keys).get? other =
        if other ∈ rotations then some (f other) else keys.get? other := by
    induction rotations with
    | nil => simp
    | cons first rest ih =>
        intro keys
        rw [List.map_cons, List.foldl_cons, ih, get?_insert]
        by_cases hRest : other ∈ rest
        · simp [hRest]
        · by_cases hFirst : other = first <;> simp [hRest, hFirst]
  exact hFold empty

end CipherRelay.Scheme.RotationKeys
