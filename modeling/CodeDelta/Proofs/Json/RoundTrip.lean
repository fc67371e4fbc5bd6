import CodeDelta.Json.Decode
import CodeDelta.Proofs.Json.Literals

/-!
# Documents read back

What is written for a value is read back as the draft of that value, in either layout
(`IsWhole.reads`), and blanks may follow it (`decodeText_write`). Numbers have to be whole and to
fit a word, as numbers of another kind are read with their literal. A reading takes from its fuel at
most twice the length of what it reads: an array costs one step and each of its items another.
-/

namespace CodeDelta.Json

/-! ### Values and texts -/

/-- A value whose numbers are whole and fit a word. -/
inductive IsWhole : Json → Prop
  | null : IsWhole .null
  | bool (value : Bool) : IsWhole (.bool value)
  | number {value : ℤ} (fits : FitsWord value) : IsWhole (.number (.integer value))
  | string (text : String) : IsWhole (.string text)
  | array {items : List Json} (whole : ∀ item ∈ items, IsWhole item) : IsWhole (.array items)
  | object {members : List (String × Json)} (whole : ∀ member ∈ members, IsWhole member.2) :
    IsWhole (.object members)

/-- Blanks between the parts of a document. -/
def AreBlanks (text : List Char) : Prop := ∀ c ∈ text, isSpace c = true

/-- A text that starts as a written value does. -/
structure OpensValue (text : List Char) : Prop where
  /-- There is something. -/
  nonempty : text ≠ []
  /-- No blank stands first. -/
  shown : skipSpace text = text
  /-- No array ends first. -/
  opens : ∀ rest, text ≠ ']' :: rest

/-- Leading blanks are left out. -/
theorem skipSpace_append {blanks : List Char} (h : AreBlanks blanks) (text : List Char) :
    skipSpace (blanks ++ text) = skipSpace text := by
  unfold skipSpace
  rw [List.dropWhile_append_of_pos h]

/-- A text that starts with no blank stays. -/
theorem skipSpace_cons {c : Char} (h : isSpace c = false) (text : List Char) :
    skipSpace (c :: text) = c :: text := by
  unfold skipSpace
  rw [List.dropWhile_cons, if_neg (Bool.eq_false_iff.1 h)]

/-- A value may stand behind blanks. -/
theorem readValue_append {blanks : List Char} (h : AreBlanks blanks) (fuel : ℕ)
    (text : List Char) : readValue fuel (blanks ++ text) = readValue fuel text := by
  cases fuel with
  | zero => rw [readValue, readValue]
  | succ fuel => rw [readValue, readValue, skipSpace_append h]

/-- A blank is one of four characters. -/
theorem isSpace_iff {c : Char} :
    isSpace c = true ↔ c = ' ' ∨ c = '\n' ∨ c = '\t' ∨ c = '\r' := by
  unfold isSpace
  simp only [Bool.or_eq_true, beq_iff_eq, or_assoc]

/-- Blanks do not go on with a number. -/
theorem AreBlanks.apart {blanks : List Char} (h : AreBlanks blanks) : Apart blanks := by
  intro c hc
  rcases isSpace_iff.1 (h c (List.mem_of_mem_head? hc)) with rfl | rfl | rfl | rfl <;> rfl

/-- A line break and what it is followed by are blanks. -/
theorem areBlanks_lineBreak (layout : Layout) (level : ℕ) :
    AreBlanks (layout.lineBreak level) := by
  intro c hc
  cases layout with
  | compact => exact absurd hc List.not_mem_nil
  | pretty =>
    rcases List.mem_cons.1 hc with rfl | hc
    · rfl
    · rw [List.eq_of_mem_replicate hc]
      rfl

/-- Between a name and its value stands a colon, perhaps with blanks behind it. -/
theorem skipSpace_colon (layout : Layout) (text : List Char) :
    ∃ blanks, AreBlanks blanks ∧ skipSpace (layout.colon ++ text) = ':' :: (blanks ++ text) := by
  cases layout with
  | compact => exact ⟨[], fun c hc => absurd hc List.not_mem_nil, skipSpace_cons rfl text⟩
  | pretty => exact ⟨[' '], fun c hc => List.mem_singleton.1 hc ▸ rfl, skipSpace_cons rfl _⟩

/-- A string literal with the text behind it, from its quote. -/
theorem writeString_append (text rest : List Char) :
    writeString text ++ rest = '"' :: (text.flatMap escapeChar ++ '"' :: rest) := by
  rw [writeString, List.cons_append, List.append_assoc, List.singleton_append]

/-- The literal of a string that was read. -/
theorem literal_ofString (text : String) (rest : List Char) :
    LiteralRead.literal ⟨.ok text.toList, .ok rest⟩ = ⟨.ok text, none⟩ :=
  congrArg (fun text => Literal.mk (.ok text) none) String.ofList_toList

/-- One character decides how a text starts. -/
theorem opensValue_cons {c : Char} (shown : isSpace c = false) (opens : c ≠ ']')
    (rest : List Char) : OpensValue (c :: rest) where
  nonempty := List.cons_ne_nil c rest
  shown := skipSpace_cons shown rest
  opens _ same := opens (List.cons.inj same).1

/-- A digit may start a value. -/
theorem opensValue_of_isDigit {c : Char} (h : c.isDigit = true) (rest : List Char) :
    OpensValue (c :: rest) := by
  apply opensValue_cons
  · rw [Bool.eq_false_iff]
    intro blank
    rcases isSpace_iff.1 blank with rfl | rfl | rfl | rfl <;> exact absurd h (by decide)
  · rintro rfl
    exact absurd h (by decide)

/-- A whole number starts with its sign or with a digit. -/
theorem exists_head_writeNumber (value : ℤ) :
    ∃ c more, writeNumber (.integer value) = c :: more ∧ (c = '-' ∨ c.isDigit = true) := by
  cases value with
  | ofNat n =>
    obtain ⟨digit, more, leading⟩ := List.exists_cons_of_length_pos
      (Nat.length_toDigits_pos (b := 10) (n := n))
    exact ⟨digit, more, leading,
      .inr (isDigit_of_mem_toDigits digit (leading ▸ List.mem_cons_self))⟩
  | negSucc n => exact ⟨'-', writeNat (n + 1), rfl, .inl rfl⟩

/-! ### One step of the reader -/

section Steps

variable {fuel : ℕ} {rest : List Char}

/-- A string is read from its quote. -/
theorem readValue_string :
    readValue (fuel + 1) ('"' :: rest) =
      (.string (readLiteral rest).literal, restOf (readLiteral rest).rest) := by
  rw [readValue, skipSpace_cons rfl]
  rfl

/-- A number is read from its sign or its first digit. -/
theorem readValue_number {c : Char} (h : c = '-' ∨ c.isDigit = true) :
    readValue (fuel + 1) (c :: rest) =
      (.number (readNumber (c :: rest)).value (faultOf (readNumber (c :: rest)).rest),
        restOf (readNumber (c :: rest)).rest) := by
  have shown : skipSpace (c :: rest) = c :: rest := by
    rcases h with rfl | digit
    · exact skipSpace_cons rfl rest
    · exact (opensValue_of_isDigit digit rest).shown
  have starts : (c == '-' || c.isDigit) = true := by
    rw [Bool.or_eq_true, beq_iff_eq]
    exact h
  have other : ∀ d, (d == '-' || d.isDigit) = false → c ≠ d := by
    rintro d stops rfl
    rw [starts] at stops
    exact Bool.false_ne_true stops.symm
  rw [readValue, shown]
  split
  · next same => exact absurd same (List.cons_ne_nil _ _)
  · next same => exact absurd (List.cons.inj same).1 (other _ rfl)
  · next same => exact absurd (List.cons.inj same).1 (other _ rfl)
  · next same => exact absurd (List.cons.inj same).1 (other _ rfl)
  · next same => exact absurd (List.cons.inj same).1 (other _ rfl)
  · next same => exact absurd (List.cons.inj same).1 (other _ rfl)
  · next same => exact absurd (List.cons.inj same).1 (other _ rfl)
  · next same =>
    obtain ⟨rfl, rfl⟩ := List.cons.inj same
    rw [if_pos starts]

/-- An empty array. -/
theorem readValue_emptyArray :
    readValue (fuel + 1) ('[' :: ']' :: rest) = (.array [] none, some rest) := by
  rw [readValue, skipSpace_cons rfl]
  rfl

/-- An array with items. -/
theorem readValue_array {text : List Char} (h : skipSpace rest = text) (opens : OpensValue text) :
    readValue (fuel + 1) ('[' :: rest) =
      (.array (readItems fuel text).1 (readItems fuel text).2.1, (readItems fuel text).2.2) := by
  have start : skipSpace ('[' :: rest) = '[' :: rest := skipSpace_cons rfl rest
  simp only [readValue, start, h]
  split
  · exact absurd rfl (opens.opens _)
  · exact absurd rfl opens.nonempty
  · rfl

/-- An empty object. -/
theorem readValue_emptyObject :
    readValue (fuel + 1) ('\x7b' :: '\x7d' :: rest) = (.object [] none, some rest) := by
  rw [readValue, skipSpace_cons rfl]
  rfl

/-- An object with members. -/
theorem readValue_object {text : List Char} (h : skipSpace rest = '"' :: text) :
    readValue (fuel + 1) ('\x7b' :: rest) =
      (.object (readMembers fuel ('"' :: text)).1 (readMembers fuel ('"' :: text)).2.1,
        (readMembers fuel ('"' :: text)).2.2) := by
  have start : skipSpace ('\x7b' :: rest) = '\x7b' :: rest := skipSpace_cons rfl rest
  simp only [readValue, start, h]
  rfl

variable {text left after : List Char} {draft : Draft}

/-- The last item of an array. -/
theorem readItems_last (read : readValue fuel text = (draft, some left))
    (h : skipSpace left = ']' :: after) :
    readItems (fuel + 1) text = ([draft], none, some after) := by
  simp only [readItems, read, h]

/-- An item that others follow. -/
theorem readItems_next {next_ : List Char} (read : readValue fuel text = (draft, some left))
    (h : skipSpace left = ',' :: after) (skipped : skipSpace after = next_)
    (opens : OpensValue next_) :
    readItems (fuel + 1) text =
      (draft :: (readItems fuel next_).1, (readItems fuel next_).2) := by
  simp only [readItems, read, h, skipped]
  split
  · exact absurd rfl (opens.opens _)
  · rfl

/-- The last member of an object. -/
theorem readMembers_last (layout : Layout) (name : String)
    (read : readValue fuel text = (draft, some left)) (h : skipSpace left = '\x7d' :: after) :
    readMembers (fuel + 1) (writeString name.toList ++ (layout.colon ++ text)) =
      ([(⟨.ok name, none⟩, draft)], none, some after) := by
  obtain ⟨blanks, areBlanks, colon⟩ := skipSpace_colon layout text
  simp only [writeString_append, readMembers, readLiteral_write, colon,
    readValue_append areBlanks, read, h, literal_ofString]

/-- A member that others follow. -/
theorem readMembers_next (layout : Layout) (name : String)
    (read : readValue fuel text = (draft, some left)) (h : skipSpace left = ',' :: after) :
    readMembers (fuel + 1) (writeString name.toList ++ (layout.colon ++ text)) =
      ((⟨.ok name, none⟩, draft) :: (readMembers fuel (skipSpace after)).1,
        (readMembers fuel (skipSpace after)).2) := by
  obtain ⟨blanks, areBlanks, colon⟩ := skipSpace_colon layout text
  simp only [writeString_append, readMembers, readLiteral_write, colon,
    readValue_append areBlanks, read, h, literal_ofString]

end Steps

/-! ### Documents -/

/-- A value that is read as it is written: what is written starts as a value does and is read as far
as it goes, unless what follows goes on with a number. -/
structure Reads (layout : Layout) (value : Json) : Prop where
  /-- How its text starts. -/
  opens : ∀ (level : ℕ) (rest : List Char), OpensValue (writeAt layout level value ++ rest)
  /-- How its text is read. -/
  read : ∀ (level fuel : ℕ) {rest : List Char}, Apart rest →
    2 * (writeAt layout level value).length ≤ fuel + 1 →
      readValue (fuel + 1) (writeAt layout level value ++ rest) =
        (Draft.ofValue value, some rest)

section Parts

variable {layout : Layout}

/-- `null` is read. -/
theorem reads_null : Reads layout .null where
  opens _ _ := opensValue_cons rfl (by decide) _
  read _ _ _ _ _ := by
    rw [readValue]
    rfl

/-- The words of truth are read. -/
theorem reads_bool (value : Bool) : Reads layout (.bool value) where
  opens _ _ := by cases value <;> exact opensValue_cons rfl (by decide) _
  read _ _ _ _ _ := by
    rw [readValue]
    cases value <;> rfl

/-- Whole numbers that fit a word are read. -/
theorem reads_number {value : ℤ} (fits : FitsWord value) :
    Reads layout (.number (.integer value)) := by
  obtain ⟨c, more, written, start⟩ := exists_head_writeNumber value
  refine ⟨fun level rest => ?_, fun level fuel rest apart _ => ?_⟩
  · rw [writeAt, written]
    rcases start with rfl | digit
    · exact opensValue_cons rfl (by decide) _
    · exact opensValue_of_isDigit digit _
  · -- Only here it matters what follows.
    have read := readNumber_write fits apart
    rw [writeAt]
    rw [written, List.cons_append] at read ⊢
    rw [readValue_number start, read]
    rfl

/-- Strings are read. -/
theorem reads_string (text : String) : Reads layout (.string text) where
  opens _ _ := opensValue_cons rfl (by decide) _
  read _ _ _ _ _ := by
    rw [writeAt, writeString_append, readValue_string, readLiteral_write, literal_ofString]
    rfl

/-- What follows an item does not go on with a number. -/
theorem apart_writeItems (level : ℕ) (items : List Json) (rest : List Char) :
    Apart (writeItems layout level items ++ rest) := by
  rintro c hc
  cases items with
  | nil => cases layout <;> exact Option.some_inj.1 hc ▸ rfl
  | cons item items => exact Option.some_inj.1 hc ▸ rfl

/-- What follows a member does not go on with a number. -/
theorem apart_writeMembers (level : ℕ) (members : List (String × Json)) (rest : List Char) :
    Apart (writeMembers layout level members ++ rest) := by
  rintro c hc
  cases members with
  | nil => cases layout <;> exact Option.some_inj.1 hc ▸ rfl
  | cons member members => exact Option.some_inj.1 hc ▸ rfl

/-- A character is found behind the line break that stands before it. -/
theorem skipSpace_lineBreak (level : ℕ) {c : Char} (shown : isSpace c = false)
    (rest : List Char) : skipSpace (layout.lineBreak level ++ c :: rest) = c :: rest := by
  rw [skipSpace_append (areBlanks_lineBreak layout level), skipSpace_cons shown]

/-- A name is found behind the line break that stands before it. -/
theorem skipSpace_name (level : ℕ) (name rest : List Char) :
    skipSpace (layout.lineBreak level ++ (writeString name ++ rest)) =
      writeString name ++ rest := by
  rw [writeString_append, skipSpace_lineBreak level rfl]

/-- A value is found behind the line break that stands before it. -/
theorem Reads.skipSpace_lineBreak {value : Json} (reads : Reads layout value) (level : ℕ)
    (rest : List Char) :
    skipSpace (layout.lineBreak level ++ (writeAt layout level value ++ rest)) =
      writeAt layout level value ++ rest := by
  rw [skipSpace_append (areBlanks_lineBreak layout level), (reads.opens level rest).shown]

/-- Items are read up to the end of their array. -/
theorem readItems_write (level fuel : ℕ) (rest : List Char) {item : Json} {items : List Json}
    (reads : ∀ value ∈ item :: items, Reads layout value)
    (enough :
      2 * (writeAt layout (level + 1) item ++ writeItems layout level items).length < fuel) :
    readItems fuel (writeAt layout (level + 1) item ++ (writeItems layout level items ++ rest)) =
      (Draft.ofItems (item :: items), none, some rest) := by
  have apart : Apart (writeItems layout level items ++ rest) := apart_writeItems level items rest
  -- The induction is on the items that follow; what is left after an item is what they start with.
  induction items generalizing item fuel with
  | nil =>
    simp only [writeItems, List.length_append, List.length_cons] at enough
    -- One step is taken by the list and one by the item.
    obtain ⟨fuel, rfl⟩ : ∃ k, fuel = k + 2 := ⟨fuel - 2, by omega⟩
    have read := (reads item List.mem_cons_self).read (level + 1) fuel apart (by omega)
    refine readItems_last read ?_
    rw [writeItems, List.append_assoc]
    exact skipSpace_lineBreak level rfl rest
  | cons other items ih =>
    simp only [writeItems, List.length_append, List.length_cons] at enough
    obtain ⟨fuel, rfl⟩ : ∃ k, fuel = k + 2 := ⟨fuel - 2, by omega⟩
    have read := (reads item List.mem_cons_self).read (level + 1) fuel apart (by omega)
    obtain ⟨-, others⟩ := List.forall_mem_cons.1 reads
    have next_ := others other List.mem_cons_self
    have later := ih (fuel + 1) others (by rw [List.length_append]; omega)
      (apart_writeItems level items rest)
    -- A comma and a line break stand before the next item.
    have comma : writeItems layout level (other :: items) ++ rest =
        ',' :: (layout.lineBreak (level + 1) ++ (writeAt layout (level + 1) other ++
          (writeItems layout level items ++ rest))) := by
      rw [writeItems, List.cons_append, List.append_assoc, List.append_assoc]
    rw [comma] at read ⊢
    rw [readItems_next read (skipSpace_cons rfl _) (next_.skipSpace_lineBreak _ _)
      (next_.opens _ _), later]
    rfl

/-- Members are read up to the end of their object. -/
theorem readMembers_write (level fuel : ℕ) (rest : List Char) (name : String) {value : Json}
    {members : List (String × Json)} (first : Reads layout value)
    (reads : ∀ member ∈ members, Reads layout member.2)
    (enough : 2 * (writeString name.toList ++ (layout.colon ++ (writeAt layout (level + 1) value ++
      writeMembers layout level members))).length < fuel) :
    readMembers fuel (writeString name.toList ++ (layout.colon ++
        (writeAt layout (level + 1) value ++ (writeMembers layout level members ++ rest)))) =
      (Draft.ofMembers ((name, value) :: members), none, some rest) := by
  have apart : Apart (writeMembers layout level members ++ rest) :=
    apart_writeMembers level members rest
  -- As for items, the induction is on the members that follow.
  induction members generalizing name value fuel with
  | nil =>
    simp only [writeMembers, List.length_append, List.length_cons] at enough
    obtain ⟨fuel, rfl⟩ : ∃ k, fuel = k + 2 := ⟨fuel - 2, by omega⟩
    have read := first.read (level + 1) fuel apart (by omega)
    refine readMembers_last layout name read ?_
    rw [writeMembers, List.append_assoc]
    exact skipSpace_lineBreak level rfl rest
  | cons other members ih =>
    obtain ⟨otherName, otherValue⟩ := other
    simp only [writeMembers, List.length_append, List.length_cons] at enough
    obtain ⟨fuel, rfl⟩ : ∃ k, fuel = k + 2 := ⟨fuel - 2, by omega⟩
    have read := first.read (level + 1) fuel apart (by omega)
    obtain ⟨next_, others⟩ := List.forall_mem_cons.1 reads
    have later := ih (fuel + 1) otherName next_ others
      (by simp only [List.length_append]; omega) (apart_writeMembers level members rest)
    -- A comma and a line break stand before the next name.
    have comma : writeMembers layout level ((otherName, otherValue) :: members) ++ rest =
        ',' :: (layout.lineBreak (level + 1) ++ (writeString otherName.toList ++ (layout.colon ++
          (writeAt layout (level + 1) otherValue ++
            (writeMembers layout level members ++ rest))))) := by
      simp only [writeMembers, List.cons_append, List.append_assoc]
    rw [comma] at read ⊢
    rw [readMembers_next layout name read (skipSpace_cons rfl _), skipSpace_name, later]
    rfl

/-- Arrays are read when their items are. -/
theorem reads_array {items : List Json} (reads : ∀ value ∈ items, Reads layout value) :
    Reads layout (.array items) where
  opens _ _ := by cases items <;> exact opensValue_cons rfl (by decide) _
  read level fuel rest _ enough := by
    cases items with
    | nil => exact readValue_emptyArray
    | cons item items =>
      simp only [writeAt, List.length_append, List.length_cons] at enough
      have first := reads item List.mem_cons_self
      have read := readItems_write level fuel rest reads (by rw [List.length_append]; omega)
      rw [writeAt, List.cons_append, List.append_assoc, List.append_assoc,
        readValue_array (first.skipSpace_lineBreak _ _) (first.opens _ _), read]
      rfl

/-- Objects are read when the values of their members are. -/
theorem reads_object {members : List (String × Json)}
    (reads : ∀ member ∈ members, Reads layout member.2) : Reads layout (.object members) where
  opens _ _ := by cases members <;> exact opensValue_cons rfl (by decide) _
  read level fuel rest _ enough := by
    cases members with
    | nil => exact readValue_emptyObject
    | cons member members =>
      obtain ⟨name, value⟩ := member
      simp only [writeAt, List.length_append, List.length_cons] at enough
      obtain ⟨first, others⟩ := List.forall_mem_cons.1 reads
      have read := readMembers_write level fuel rest name first others
        (by simp only [List.length_append]; omega)
      rw [writeString_append] at read
      simp only [writeAt, List.cons_append, List.append_assoc]
      rw [writeString_append, readValue_object (skipSpace_lineBreak _ rfl _), read]
      rfl

end Parts

/-- Values whose numbers are whole and fit a word are read. -/
theorem IsWhole.reads {value : Json} (whole : IsWhole value) (layout : Layout) :
    Reads layout value := by
  induction whole with
  | null => exact reads_null
  | bool value => exact reads_bool value
  | number fits => exact reads_number fits
  | string text => exact reads_string text
  | array _ ih => exact reads_array ih
  | object _ ih => exact reads_object ih

/-- A written document is read as the draft of its value, also with blanks behind it. -/
theorem decodeText_write {α : Type} (decode : Decoder α) (layout : Layout) {value : Json}
    (whole : IsWhole value) {blanks : List Char} (h : AreBlanks blanks) :
    decodeText decode (write layout value ++ String.ofList blanks) =
      decode maxDepth (Draft.ofValue value) := by
  have text : (write layout value ++ String.ofList blanks).toList =
      writeAt layout 0 value ++ blanks := by
    rw [String.toList_append, write, String.toList_ofList, String.toList_ofList]
  have read := (whole.reads layout).read 0
    (2 * (writeAt layout 0 value ++ blanks).length) h.apart
    (by rw [List.length_append]; omega)
  have trailing : (skipSpace blanks).isEmpty = true := by
    have skipped := skipSpace_append h []
    rw [List.append_nil] at skipped
    rw [skipped]
    rfl
  unfold decodeText readDocument
  rw [text, read]
  dsimp only
  rw [trailing]
  cases decode maxDepth (Draft.ofValue value) <;> rfl

end CodeDelta.Json
