import CodeDelta.Proofs.Document.Records

/-!
# Values read as they are written

A value that is kept as it is written, for a decoder that comes later, is read from its own draft
whatever it holds, provided that enough levels are left (`decodeContent_ofValue`). The value of a
change is kept in normal form; a value without objects has no other form (`IsFlat.normal_eq`).
-/

namespace CodeDelta.Json

section Levels

variable {room : ℕ}

/-- An array takes one level, and its items are read in what is left. -/
theorem exists_room_array {items : List Json}
    (levels : (Draft.ofValue (.array items)).depth ≤ room) :
    ∃ inner, room = inner + 1 ∧ ∀ item ∈ items, (Draft.ofValue item).depth ≤ inner := by
  have one : 1 ≤ room := by
    rw [Draft.ofValue, Draft.depth] at levels
    omega
  refine ⟨room - 1, by omega, fun item hi => ?_⟩
  have below := depth_item_lt hi
  omega

/-- An object takes one level, and the values of its members are read in what is left. -/
theorem exists_room_object {members : List (String × Json)}
    (levels : (Draft.ofValue (.object members)).depth ≤ room) :
    ∃ inner, room = inner + 1 ∧ ∀ member ∈ members, (Draft.ofValue member.2).depth ≤ inner := by
  have one : 1 ≤ room := by
    rw [Draft.ofValue, Draft.depth] at levels
    omega
  refine ⟨room - 1, by omega, fun member hm => ?_⟩
  have below := depth_member_lt hm
  omega

end Levels

mutual

/-- A value is read as it is written. -/
theorem decodeContent_ofValue (value : Json) {room : ℕ}
    (levels : (Draft.ofValue value).depth ≤ room) :
    decodeContent room (Draft.ofValue value) = .ok value := by
  cases value with
  | null => rw [Draft.ofValue, decodeContent]
  | bool value => rw [Draft.ofValue, decodeContent]
  | number value =>
    rw [Draft.ofValue, decodeContent]
    rfl
  | string text =>
    rw [Draft.ofValue, decodeContent]
    rfl
  | array items =>
    obtain ⟨inner, rfl, within⟩ := exists_room_array levels
    rw [Draft.ofValue, decodeContent, decodeContents_ofItems items within]
    rfl
  | object members =>
    obtain ⟨inner, rfl, within⟩ := exists_room_object levels
    rw [Draft.ofValue, decodeContent, decodeNamed_ofMembers members within]
    rfl

/-- Items are read as they are written. -/
theorem decodeContents_ofItems (items : List Json) {room : ℕ}
    (within : ∀ item ∈ items, (Draft.ofValue item).depth ≤ room) :
    decodeContents room none (Draft.ofItems items) = .ok items := by
  cases items with
  | nil => rw [Draft.ofItems, decodeContents]
  | cons item rest =>
    obtain ⟨first, others⟩ := List.forall_mem_cons.1 within
    rw [Draft.ofItems, decodeContents, decodeContent_ofValue item first,
      decodeContents_ofItems rest others]
    rfl

/-- Members are read as they are written. -/
theorem decodeNamed_ofMembers (members : List (String × Json)) {room : ℕ}
    (within : ∀ member ∈ members, (Draft.ofValue member.2).depth ≤ room) :
    decodeNamed room none (Draft.ofMembers members) = .ok members := by
  cases members with
  | nil => rw [Draft.ofMembers, decodeNamed]
  | cons member rest =>
    obtain ⟨name, value⟩ := member
    obtain ⟨first, others⟩ := List.forall_mem_cons.1 within
    have content := decodeContent_ofValue value first
    have named := decodeNamed_ofMembers rest others
    rw [Draft.ofMembers, decodeNamed]
    simp only [bind, Except.bind, content, named]
    rfl

end

/-! ### Normal forms -/

/-- A value that holds no object. -/
inductive IsFlat : Json → Prop
  | null : IsFlat .null
  | bool (value : Bool) : IsFlat (.bool value)
  | number (value : Number) : IsFlat (.number value)
  | string (text : String) : IsFlat (.string text)
  | array {items : List Json} (flat : ∀ item ∈ items, IsFlat item) : IsFlat (.array items)

/-- Items in normal form stay as they are. -/
theorem normalItems_eq {items : List Json} (same : ∀ item ∈ items, normal item = item) :
    normalItems items = items := by
  induction items with
  | nil => rw [normalItems]
  | cons item rest ih =>
    obtain ⟨first, others⟩ := List.forall_mem_cons.1 same
    rw [normalItems, first, ih others]

/-- Only the members of objects are ever put in order. -/
theorem IsFlat.normal_eq {value : Json} (flat : IsFlat value) : normal value = value := by
  induction flat with
  | null => rw [normal]
  | bool value => rw [normal]
  | number value => rw [normal]
  | string text => rw [normal]
  | array _ ih => rw [normal, normalItems_eq ih]

/-- A list of texts holds no object. -/
theorem isFlat_ofStrings (texts : List String) : IsFlat (ofStrings texts) :=
  .array (List.forall_mem_map.2 fun text _ => .string text)

end CodeDelta.Json
