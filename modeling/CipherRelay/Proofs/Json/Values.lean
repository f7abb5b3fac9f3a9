import CipherRelay.Proofs.Json.Lexemes
/-!
Reading undoes writing. A value is written if all its numbers and strings are; its lexemes then make
a spaced row, from which the reader builds the value again, whatever containers are open around it.
-/
namespace CipherRelay.Json

/-- Induction over a value: its parts before the value itself. -/
@[elab_as_elim]
theorem induction {motive : Json → Prop} (null : motive .null)
    (bool : ∀ value, motive (.bool value)) (number : ∀ text, motive (.number text))
    (string : ∀ raw, motive (.string raw))
    (array : ∀ items, (∀ item ∈ items, motive item) → motive (.array items))
    (object : ∀ members, (∀ member ∈ members, motive member.2) → motive (.object members)) :
    ∀ value, motive value
  | .null => null
  | .bool value => bool value
  | .number text => number text
  | .string raw => string raw
  | .array items => array items fun item _ => induction null bool number string array object item
  | .object members =>
      object members fun member hMem =>
        have : sizeOf member.2 < 1 + sizeOf members := by
          have hMember := List.sizeOf_lt_of_mem hMem
          have hPart : sizeOf member = 1 + sizeOf member.1 + sizeOf member.2 := by cases member; rfl
          omega
        induction null bool number string array object member.2

/-- A value whose text can be read back. -/
def IsWritten (value : Json) : Prop :=
  ∀ lexeme ∈ value.lexemes, lexeme.IsWritten

theorem forall_mem_itemLexemes {items : List Json} :
    (∀ lexeme ∈ itemLexemes items, lexeme.IsWritten) ↔ ∀ item ∈ items, item.IsWritten := by
  have hComma : Lexeme.comma.IsWritten := trivial
  induction items with
  | nil => simp [itemLexemes]
  | cons first rest ih =>
      cases rest with
      | nil => simp [itemLexemes, IsWritten]
      | cons second rest =>
          simp only [itemLexemes, List.forall_mem_append, List.forall_mem_cons (a := Lexeme.comma),
            List.forall_mem_cons (a := first), ih, hComma, true_and]
          rfl

theorem forall_mem_memberLexemes {members : List (Bytes × Json)} :
    (∀ lexeme ∈ memberLexemes members, lexeme.IsWritten) ↔
      ∀ member ∈ members, Quotable member.1 ∧ member.2.IsWritten := by
  have hComma : Lexeme.comma.IsWritten := trivial
  have hColon : Lexeme.colon.IsWritten := trivial
  induction members with
  | nil => simp [memberLexemes]
  | cons first rest ih =>
      obtain ⟨key, value⟩ := first
      have hKey : (Lexeme.string key).IsWritten ↔ Quotable key := Iff.rfl
      have hValue : (∀ lexeme ∈ value.lexemes, lexeme.IsWritten) ↔ value.IsWritten := Iff.rfl
      cases rest with
      | nil => simp [memberLexemes, hColon, hKey, hValue]
      | cons second rest =>
          simp only [List.forall_mem_cons (a := (key, value)), ← ih, memberLexemes,
            List.forall_mem_append, List.forall_mem_cons (α := Lexeme), hComma, hColon, hKey,
            hValue, true_and]

/-- An array is written if its items are. -/
theorem isWritten_array {items : List Json} :
    (Json.array items).IsWritten ↔ ∀ item ∈ items, item.IsWritten := by
  have hOpen : Lexeme.openArray.IsWritten := trivial
  have hClose : Lexeme.closeArray.IsWritten := trivial
  rw [← forall_mem_itemLexemes]
  simp only [IsWritten, lexemes, List.forall_mem_append, List.forall_mem_cons, hOpen, hClose]
  simp

/-- An object is written if its keys can be quoted and its values are written. -/
theorem isWritten_object {members : List (Bytes × Json)} :
    (Json.object members).IsWritten ↔
      ∀ member ∈ members, Quotable member.1 ∧ member.2.IsWritten := by
  have hOpen : Lexeme.openObject.IsWritten := trivial
  have hClose : Lexeme.closeObject.IsWritten := trivial
  rw [← forall_mem_memberLexemes]
  simp only [IsWritten, lexemes, List.forall_mem_append, List.forall_mem_cons, hOpen, hClose]
  simp

/-- A row that may stand behind a word. -/
def Follows (row : List Lexeme) : Prop :=
  ∀ next ∈ row.head?, next.isWord = false

theorem spaced_mark (lexeme : Lexeme) {rest : List Lexeme} (hWritten : lexeme.IsWritten)
    (hWord : lexeme.isWord = false) (hRest : Spaced rest) :
    Spaced (lexeme :: rest) ∧ Follows (lexeme :: rest) :=
  ⟨⟨hWritten, by simp [hWord], hRest⟩, by simp [Follows, hWord]⟩

/-- Items keep a row spaced if each of them does. -/
theorem spaced_itemLexemes {items : List Json}
    (hItems : ∀ item ∈ items, ∀ {rest : List Lexeme}, Spaced rest → Follows rest →
      Spaced (item.lexemes ++ rest))
    {rest : List Lexeme} (hRest : Spaced rest) (hFollows : Follows rest) :
    Spaced (itemLexemes items ++ rest) := by
  induction items with
  | nil => exact hRest
  | cons first items ih =>
      have hTail := ih fun item hMem => hItems item (by simp [hMem])
      have hFirst := @hItems first (by simp)
      cases items with
      | nil => exact hFirst hRest hFollows
      | cons second items =>
          obtain ⟨hComma, hAfter⟩ := spaced_mark .comma trivial rfl hTail
          simpa [itemLexemes] using hFirst hComma hAfter

/-- Members keep a row spaced if their values do. -/
theorem spaced_memberLexemes {members : List (Bytes × Json)}
    (hMembers : ∀ member ∈ members, Quotable member.1 ∧ ∀ {rest : List Lexeme}, Spaced rest →
      Follows rest → Spaced (member.2.lexemes ++ rest))
    {rest : List Lexeme} (hRest : Spaced rest) (hFollows : Follows rest) :
    Spaced (memberLexemes members ++ rest) := by
  induction members with
  | nil => exact hRest
  | cons first members ih =>
      obtain ⟨key, value⟩ := first
      have hTail := ih fun member hMem => hMembers member (by simp [hMem])
      obtain ⟨hKey, hValue⟩ := hMembers (key, value) (by simp)
      have hHead : ∀ {row : List Lexeme}, Spaced row → Follows row →
          Spaced (.string key :: .colon :: (value.lexemes ++ row)) := by
        intro row hRow hRowFollows
        have hColon := (spaced_mark .colon trivial rfl (hValue hRow hRowFollows)).1
        exact (spaced_mark (.string key) hKey rfl hColon).1
      cases members with
      | nil => simpa [memberLexemes] using hHead hRest hFollows
      | cons second members =>
          obtain ⟨hComma, hAfter⟩ := spaced_mark .comma trivial rfl hTail
          simpa [memberLexemes] using hHead hComma hAfter

/-- The lexemes of a written value keep a row spaced. -/
theorem spaced_lexemes {value : Json} (hWritten : value.IsWritten) {rest : List Lexeme}
    (hRest : Spaced rest) (hFollows : Follows rest) : Spaced (value.lexemes ++ rest) := by
  induction value using Json.induction generalizing rest with
  | null => exact ⟨trivial, fun _ => hFollows, hRest⟩
  | bool value => exact ⟨trivial, fun _ => hFollows, hRest⟩
  | number text =>
      exact ⟨hWritten (.number text) (by simp [lexemes]), fun _ => hFollows, hRest⟩
  | string raw => exact ⟨hWritten (.string raw) (by simp [lexemes]), by simp [Lexeme.isWord], hRest⟩
  | array items ih =>
      obtain ⟨hClose, hAfter⟩ := spaced_mark .closeArray trivial rfl hRest
      have hItems := spaced_itemLexemes
        (fun item hMem _ => ih item hMem (isWritten_array.mp hWritten item hMem)) hClose hAfter
      simpa [lexemes] using (spaced_mark .openArray trivial rfl hItems).1
  | object members ih =>
      obtain ⟨hClose, hAfter⟩ := spaced_mark .closeObject trivial rfl hRest
      have hMembers := spaced_memberLexemes
        (fun member hMem =>
          ⟨(isWritten_object.mp hWritten member hMem).1, fun {_} =>
            ih member hMem (isWritten_object.mp hWritten member hMem).2⟩)
        hClose hAfter
      simpa [lexemes] using (spaced_mark .openObject trivial rfl hMembers).1

/-- The lexemes of the text of a written value. -/
theorem lexemes?_render {value : Json} (hWritten : value.IsWritten) :
    lexemes? value.render = some value.lexemes := by
  have hSpaced := spaced_lexemes hWritten (show Spaced [] from trivial) (by simp [Follows])
  rw [List.append_nil] at hSpaced
  exact lexemes?_flatMap_render hSpaced

namespace Reader

/-- The first lexeme of a value is no end of an array. -/
theorem run?_firstItem (value : Json) (stack : List Container) (rest : List Lexeme) :
    (Reader.firstItem stack).run? (value.lexemes ++ rest) =
      (Reader.expectValue (.array [] :: stack)).run? (value.lexemes ++ rest) := by
  cases value <;> rfl

/-- Items are read up to the end of their array if each of them is read. -/
theorem run?_itemLexemes {first : Json} {items : List Json}
    (hItems : ∀ item ∈ first :: items, ∀ stack rest,
      (Reader.expectValue stack).run? (item.lexemes ++ rest) = (complete item stack).run? rest)
    (done : List Json) (stack : List Container) (rest : List Lexeme) :
    (Reader.expectValue (.array done :: stack)).run?
        (itemLexemes (first :: items) ++ .closeArray :: rest) =
      (complete (.array (done.reverse ++ first :: items)) stack).run? rest := by
  induction items generalizing first done with
  | nil =>
      rw [itemLexemes, hItems first (by simp)]
      simp [complete, run?, next?]
  | cons second items ih =>
      have hFirst := hItems first (by simp) (.array done :: stack)
      have hRest := @ih second (fun item hMem => hItems item (by simp [hMem]))
        (first :: done)
      simp only [itemLexemes, List.append_assoc, hFirst]
      simpa [complete, run?, next?] using hRest

/-- Members are read up to the end of their object if each of their values is read. -/
theorem run?_memberLexemes {first : Bytes × Json} {members : List (Bytes × Json)}
    (hMembers : ∀ member ∈ first :: members, ∀ stack rest,
      (Reader.expectValue stack).run? (member.2.lexemes ++ rest) =
        (complete member.2 stack).run? rest)
    (done : List (Bytes × Json)) (stack : List Container) (rest : List Lexeme) :
    (Reader.expectKey done stack).run?
        (memberLexemes (first :: members) ++ .closeObject :: rest) =
      (complete (.object (done.reverse ++ first :: members)) stack).run? rest := by
  induction members generalizing first done with
  | nil =>
      obtain ⟨key, value⟩ := first
      have hValue := hMembers (key, value) (by simp) (.object done key :: stack)
      simp [memberLexemes, run?, next?, hValue, complete]
  | cons second members ih =>
      obtain ⟨key, value⟩ := first
      have hValue := hMembers (key, value) (by simp) (.object done key :: stack)
      have hRest := @ih second (fun member hMem => hMembers member (by simp [hMem]))
        ((key, value) :: done)
      simpa [memberLexemes, run?, next?, hValue, complete] using hRest

/-- A value is read from its lexemes, inside any open containers. -/
theorem run?_lexemes (value : Json) (stack : List Container) (rest : List Lexeme) :
    (Reader.expectValue stack).run? (value.lexemes ++ rest) = (complete value stack).run? rest := by
  induction value using Json.induction generalizing stack rest with
  | null => rfl
  | bool value => rfl
  | number text => rfl
  | string raw => rfl
  | array items ih =>
      cases items with
      | nil => rfl
      | cons first items =>
          have hItems := run?_itemLexemes ih [] stack rest
          have hOpen : ∀ row, (Reader.expectValue stack).run? (.openArray :: row) =
              (Reader.firstItem stack).run? row := fun row => rfl
          have hFirst : ∃ tail, itemLexemes (first :: items) = first.lexemes ++ tail := by
            cases items with
            | nil => exact ⟨[], by simp [itemLexemes]⟩
            | cons second items => exact ⟨_, rfl⟩
          obtain ⟨tail, hTail⟩ := hFirst
          simp only [lexemes, List.cons_append, List.append_assoc, List.nil_append] at hItems ⊢
          rw [hOpen]
          rw [hTail, List.append_assoc] at hItems ⊢
          rw [run?_firstItem, hItems]
          rfl
  | object members ih =>
      cases members with
      | nil => rfl
      | cons first members =>
          have hMembers := run?_memberLexemes ih [] stack rest
          have hOpen : (Reader.firstKey stack).run?
                (memberLexemes (first :: members) ++ .closeObject :: rest) =
              (Reader.expectKey [] stack).run?
                (memberLexemes (first :: members) ++ .closeObject :: rest) := by
            cases members <;> rfl
          simpa [lexemes, run?, next?, begin?, hOpen] using hMembers

end Reader

/-- A value is what its lexemes are read as. -/
theorem ofLexemes?_lexemes (value : Json) : ofLexemes? value.lexemes = some value := by
  have hRead := Reader.run?_lexemes value [] []
  rw [List.append_nil] at hRead
  simp [ofLexemes?, hRead, Reader.complete, Reader.run?]

/-- A written value is read back from its text. -/
theorem read?_render {value : Json} (hWritten : value.IsWritten) :
    read? value.render = some value := by
  simp [read?, lexemes?_render hWritten, ofLexemes?_lexemes]

end CipherRelay.Json
