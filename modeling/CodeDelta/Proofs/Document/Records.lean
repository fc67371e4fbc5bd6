import CodeDelta.Document.Encode
import CodeDelta.Document.Decode
import CodeDelta.Proofs.Json.RoundTrip
import Mathlib.Data.Int.Notation
import Mathlib.Data.Nat.Notation

/-!
# Records read back

A record is written with its members in the order of its fields, some left out. Such members fill
the record (`Fills`), field after field; when no two fields share a name, the record is read
(`decodeRecord_of_fills`). A field that may be left out is filled either way, when leaving it out
stands for the value the record has there before.
-/

namespace CodeDelta.Json

/-- Members that stand in the order of the fields and turn one record into another. -/
inductive Fills {σ : Type} (room : ℕ) :
    List (RecordField σ) → List (String × Json) → σ → σ → Prop
  /-- No field is left. -/
  | nil (record : σ) : Fills room [] [] record record
  /-- A field that need not be there is left out. -/
  | skip {field : RecordField σ} {fields : List (RecordField σ)}
      {members : List (String × Json)} {record last : σ} (free : field.required = false)
      (later : Fills room fields members record last) :
      Fills room (field :: fields) members record last
  /-- A field is read. -/
  | read {field : RecordField σ} {fields : List (RecordField σ)} {value : Json}
      {members : List (String × Json)} {record last : σ} {update : σ → σ}
      (reads : field.read room (Draft.ofValue value) = .ok update)
      (later : Fills room fields members (update record) last) :
      Fills room (field :: fields) ((field.name, value) :: members) record last

/-- The names that were read before the fields that are left: they are names of earlier fields, and
those of all earlier fields that have to be there. -/
structure ReadBefore {σ : Type} (earlier : List (RecordField σ)) (seen : List String) : Prop where
  /-- No other name was read. -/
  known : ∀ name ∈ seen, name ∈ earlier.map RecordField.name
  /-- No field that has to be there was left out. -/
  complete : ∀ field ∈ earlier, field.required = true → field.name ∈ seen

section Records

variable {σ : Type} {room : ℕ} {earlier : List (RecordField σ)} {seen : List String}
  {field : RecordField σ}

/-- A field that need not be there may be left out. -/
theorem ReadBefore.skip (before : ReadBefore earlier seen) (free : field.required = false) :
    ReadBefore (earlier ++ [field]) seen where
  known name hn := by
    rw [List.map_append]
    exact List.mem_append_left _ (before.known name hn)
  complete other ho required := by
    rcases List.mem_append.1 ho with ho | ho
    · exact before.complete other ho required
    · rw [List.mem_singleton.1 ho, free] at required
      exact absurd required Bool.false_ne_true

/-- Reading a field adds its name. -/
theorem ReadBefore.read (before : ReadBefore earlier seen) :
    ReadBefore (earlier ++ [field]) (field.name :: seen) where
  known name hn := by
    rw [List.map_append]
    rcases List.mem_cons.1 hn with rfl | hn
    · exact List.mem_append_right _ (List.mem_singleton_self _)
    · exact List.mem_append_left _ (before.known name hn)
  complete other ho required := by
    rcases List.mem_append.1 ho with ho | ho
    · exact List.mem_cons_of_mem _ (before.complete other ho required)
    · rw [List.mem_singleton.1 ho]
      exact List.mem_cons_self

/-- Among names that differ, that of a field is none of an earlier one. -/
theorem name_not_mem {later : List (RecordField σ)}
    (names : ((earlier ++ field :: later).map RecordField.name).Nodup) :
    field.name ∉ earlier.map RecordField.name := by
  rw [List.map_append, List.map_cons] at names
  exact fun here =>
    (List.nodup_append.1 names).2.2 field.name here field.name List.mem_cons_self rfl

/-- Among fields whose names differ, a name finds its own. -/
theorem find?_field {later : List (RecordField σ)}
    (names : ((earlier ++ field :: later).map RecordField.name).Nodup) :
    (earlier ++ field :: later).find? (fun other => other.name == field.name) = some field := by
  have fresh : ∀ other ∈ earlier, ¬(other.name == field.name) = true := by
    intro other ho same
    exact name_not_mem names (List.mem_map.2 ⟨other, ho, beq_iff_eq.1 same⟩)
  rw [List.find?_append, List.find?_eq_none.2 fresh, Option.none_or]
  exact List.find?_cons_of_pos (beq_self_eq_true field.name)

/-- Members that fill what is left of a record are read. -/
theorem decodeMembers_of_fills (earlier : List (RecordField σ)) (seen : List String)
    {later : List (RecordField σ)} {members : List (String × Json)} {record last : σ}
    (fills : Fills room later members record last)
    (names : ((earlier ++ later).map RecordField.name).Nodup) (before : ReadBefore earlier seen) :
    decodeMembers (earlier ++ later) room none seen (Draft.ofMembers members) record =
      .ok last := by
  -- The induction is on the fields that are left; a name is found among all fields, though.
  induction fills generalizing earlier seen with
  | nil record =>
    rw [List.append_nil, Draft.ofMembers, decodeMembers]
    refine if_neg ?_
    rw [List.any_eq_true]
    rintro ⟨field, hf, missing⟩
    rw [Bool.and_eq_true, Bool.not_eq_true'] at missing
    have read := before.complete field hf missing.1
    rw [List.contains_iff_mem.2 read] at missing
    exact absurd missing.2 (by decide)
  | @skip field fields members record last free later ih =>
    rw [← List.singleton_append, ← List.append_assoc] at names ⊢
    exact ih (earlier ++ [field]) seen names (before.skip free)
  | @read field fields value members record last update reads later ih =>
    have found := find?_field names
    have fresh : ¬seen.contains field.name = true := by
      rw [List.contains_iff_mem]
      exact fun hs => name_not_mem names (before.known field.name hs)
    rw [← List.singleton_append, ← List.append_assoc] at names found ⊢
    have rest := ih (earlier ++ [field]) (field.name :: seen) names before.read
    rw [Draft.ofMembers, decodeMembers]
    simp only [bind, Except.bind, found, fresh, reads]
    exact rest

/-- A record is read from members that fill it. -/
theorem decodeRecord_of_fills (origin : Origin) {fields : List (RecordField σ)}
    {members : List (String × Json)} {missing record : σ}
    (names : (fields.map RecordField.name).Nodup)
    (fills : Fills room fields members missing record) :
    decodeRecord origin fields missing (room + 1) (Draft.ofValue (.object members)) =
      .ok record := by
  rw [Draft.ofValue, decodeRecord]
  exact decodeMembers_of_fills [] [] fills names
    ⟨List.forall_mem_nil _, List.forall_mem_nil _⟩

end Records

/-! ### Values read back -/

section Values

variable {α : Type} {room : ℕ}

/-- A natural number is read by a decoder that has bits enough. -/
theorem decodeNat_ofNat {bits n : ℕ} (fits : n < Nat.pow 2 bits) :
    decodeNat bits room (Draft.ofValue (ofNat n)) = .ok n := by
  have bounds : (0 : ℤ) ≤ (n : ℤ) ∧ (n : ℤ) ≤ Int.pow 2 bits - 1 := by
    have below : (n : ℤ) < ((Nat.pow 2 bits : ℕ) : ℤ) := Int.ofNat_lt.2 fits
    have power : ((Nat.pow 2 bits : ℕ) : ℤ) = Int.pow 2 bits := Int.natCast_pow 2 bits
    rw [power] at below
    exact ⟨Int.natCast_nonneg n, Int.le_sub_one_of_lt below⟩
  have read : decodeInt 0 (Int.pow 2 bits - 1) room (Draft.ofValue (ofNat n)) = .ok (n : ℤ) :=
    if_pos bounds
  unfold decodeNat
  rw [read]
  rfl

/-- Items that are read one by one are read as a list. -/
theorem decodeItems_ofItems {decode : Draft → Except Fault α} {encode : α → Json}
    {values : List α}
    (reads : ∀ value ∈ values, decode (Draft.ofValue (encode value)) = .ok value) :
    decodeItems decode none (Draft.ofItems (values.map encode)) = .ok values := by
  induction values with
  | nil => rfl
  | cons value rest ih =>
    obtain ⟨first, others⟩ := List.forall_mem_cons.1 reads
    rw [List.map_cons, Draft.ofItems, decodeItems, first, ih others]
    rfl

/-- An array is read when its items are. -/
theorem decodeList_ofValue {decode : Decoder α} {encode : α → Json} {values : List α}
    (reads : ∀ value ∈ values, decode room (Draft.ofValue (encode value)) = .ok value) :
    decodeList decode (room + 1) (Draft.ofValue (.array (values.map encode))) = .ok values := by
  rw [Draft.ofValue, decodeList]
  exact decodeItems_ofItems reads

end Values

/-! ### Nesting -/

/-- An item nests less than its array. -/
theorem depth_item_lt {item : Json} {items : List Json} (h : item ∈ items) :
    (Draft.ofValue item).depth < (Draft.ofValue (.array items)).depth := by
  rw [Draft.ofValue, Draft.depth, Nat.lt_succ_iff]
  induction items with
  | nil => exact absurd h List.not_mem_nil
  | cons first rest ih =>
    rw [Draft.ofItems, Draft.depthItems]
    rcases List.mem_cons.1 h with rfl | h
    · exact Nat.le_max_left _ _
    · exact Nat.le_trans (ih h) (Nat.le_max_right _ _)

/-- The value of a member nests less than its object. -/
theorem depth_member_lt {member : String × Json} {members : List (String × Json)}
    (h : member ∈ members) :
    (Draft.ofValue member.2).depth < (Draft.ofValue (.object members)).depth := by
  rw [Draft.ofValue, Draft.depth, Nat.lt_succ_iff]
  induction members with
  | nil => exact absurd h List.not_mem_nil
  | cons first rest ih =>
    obtain ⟨name, value⟩ := first
    rw [Draft.ofMembers, Draft.depthMembers]
    rcases List.mem_cons.1 h with rfl | h
    · exact Nat.le_max_left _ _
    · exact Nat.le_trans (ih h) (Nat.le_max_right _ _)

/-- An item of a member's list stands two levels below the object. -/
theorem depth_listed_le {name : String} {item : Json} {items : List Json}
    {members : List (String × Json)} (hi : item ∈ items) (hm : (name, .array items) ∈ members) :
    (Draft.ofValue item).depth + 2 ≤ (Draft.ofValue (.object members)).depth := by
  have inner := depth_item_lt hi
  have outer : (Draft.ofValue (.array items)).depth < (Draft.ofValue (.object members)).depth :=
    depth_member_lt hm
  omega

/-! ### Fields that are left out or read -/

/-- A list that is not empty is written. -/
theorem mem_listMember (name : String) {item : Json} {items : List Json} (h : item ∈ items) :
    (name, .array items) ∈ listMember name items := by
  cases items with
  | nil => exact absurd h List.not_mem_nil
  | cons first rest => exact List.mem_singleton_self _

section Fields

variable {σ α : Type} {room : ℕ} {name : String} {fields : List (RecordField σ)}
  {members : List (String × Json)} {record last : σ}

/-- A field is read by its decoder. -/
theorem Fills.of {required : Bool} {decode : Decoder α} {set : σ → α → σ} {value : Json} {found : α}
    (reads : decode room (Draft.ofValue value) = .ok found)
    (later : Fills room fields members (set record found) last) :
    Fills room (.of name required decode set :: fields) ((name, value) :: members) record last := by
  have update : (RecordField.of name required decode set).read room (Draft.ofValue value) =
      .ok fun record => set record found :=
    congrArg (Except.map fun value record => set record value) reads
  exact .read update later

/-- An optional value is read, or there is none before. -/
theorem Fills.optional {decode : Decoder (Option α)} {encode : α → Json} {set : σ → Option α → σ}
    {value : Option α} (absent : set record none = record)
    (reads : ∀ found ∈ value, decode room (Draft.ofValue (encode found)) = .ok (some found))
    (later : Fills room fields members (set record value) last) :
    Fills room (.of name false decode set :: fields) (optionalMember name encode value ++ members)
      record last := by
  cases value with
  | none =>
    rw [absent] at later
    exact .skip rfl later
  | some found => exact .of (reads found rfl) later

/-- A list is read, or it is empty before. -/
theorem Fills.list {decode : Decoder (List α)} {encode : α → Json} {set : σ → List α → σ}
    {values : List α} (absent : set record [] = record)
    (reads : values ≠ [] →
      decode room (Draft.ofValue (.array (values.map encode))) = .ok values)
    (later : Fills room fields members (set record values) last) :
    Fills room (.of name false decode set :: fields)
      (listMember name (values.map encode) ++ members) record last := by
  cases values with
  | nil =>
    rw [absent] at later
    exact .skip rfl later
  | cons first rest => exact .of (reads (List.cons_ne_nil first rest)) later

/-- A text is read, or it is empty before. -/
theorem Fills.text {set : σ → String → σ} {text : String} (absent : set record "" = record)
    (later : Fills room fields members (set record text) last) :
    Fills room (.of name false decodeString set :: fields)
      ((if text = "" then [] else [(name, .string text)]) ++ members) record last := by
  by_cases empty : text = ""
  · rw [empty, absent] at later
    rw [if_pos empty]
    exact .skip rfl later
  · rw [if_neg empty]
    exact .of rfl later

/-- A count is read, or it is zero before. -/
theorem Fills.count {decode : Decoder ℕ} {set : σ → ℕ → σ} {count : ℕ}
    (absent : set record 0 = record)
    (reads : decode room (Draft.ofValue (ofNat count)) = .ok count)
    (later : Fills room fields members (set record count) last) :
    Fills room (.of name false decode set :: fields) (countMember name count ++ members)
      record last := by
  unfold countMember
  by_cases zero : count = 0
  · rw [zero, absent] at later
    rw [if_pos zero]
    exact .skip rfl later
  · rw [if_neg zero]
    exact .of reads later

end Fields

/-! ### Whole numbers -/

section Whole

variable {α : Type} {name : String}

/-- A natural number below `2 ^ 64` fits a word. -/
theorem isWhole_ofNat {n : ℕ} (fits : n < Nat.pow 2 64) : IsWhole (ofNat n) := by
  have below : (n : ℤ) < ((Nat.pow 2 64 : ℕ) : ℤ) := Int.ofNat_lt.2 fits
  have least : -Int.pow 2 63 ≤ (n : ℤ) := Int.le_trans (by decide) (Int.natCast_nonneg n)
  exact .number ⟨least, below⟩

/-- An optional member is whole when its value is. -/
theorem isWhole_optionalMember {encode : α → Json} {value : Option α}
    (whole : ∀ found ∈ value, IsWhole (encode found)) :
    ∀ member ∈ optionalMember name encode value, IsWhole member.2 := by
  cases value with
  | none => exact List.forall_mem_nil _
  | some found => exact List.forall_mem_singleton.2 (whole found rfl)

/-- An optional text is whole. -/
theorem isWhole_optionalText (value : Option String) :
    ∀ member ∈ optionalMember name .string value, IsWhole member.2 :=
  isWhole_optionalMember fun text _ => .string text

/-- An optional number is whole when it fits a word. -/
theorem isWhole_optionalNat {value : Option ℕ} (fits : ∀ n ∈ value, n < Nat.pow 2 64) :
    ∀ member ∈ optionalMember name ofNat value, IsWhole member.2 :=
  isWhole_optionalMember fun n hn => isWhole_ofNat (fits n hn)

/-- A list is whole when its items are. -/
theorem isWhole_listMember {items : List Json} (whole : ∀ item ∈ items, IsWhole item) :
    ∀ member ∈ listMember name items, IsWhole member.2 := by
  cases items with
  | nil => exact List.forall_mem_nil _
  | cons first rest => exact List.forall_mem_singleton.2 (.array whole)

/-- A count is whole when it fits a word. -/
theorem isWhole_countMember {count : ℕ} (fits : count < Nat.pow 2 64) :
    ∀ member ∈ countMember name count, IsWhole member.2 := by
  unfold countMember
  split
  · exact List.forall_mem_nil _
  · exact List.forall_mem_singleton.2 (isWhole_ofNat fits)

end Whole

end CodeDelta.Json
