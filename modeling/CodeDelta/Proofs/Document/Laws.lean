import CodeDelta.Proofs.Document.Content

/-!
# Decoders and the documents they read

A decoder reads a document as a value (`Decodes`) when it does so however the document is nested,
given levels enough. Each way of putting decoders together has its law: a list is read when its
items are, a record when its members restore it field by field (`Restores`), a map when its entries
are. No law counts levels; each hands on those that it was given.
-/

namespace CodeDelta.Json

/-- The decoder reads the document as the value whenever enough levels are left. -/
def Decodes {α : Type} (decode : Decoder α) (document : Json) (value : α) : Prop :=
  ∀ ⦃room : ℕ⦄, (Draft.ofValue document).depth ≤ room →
    decode room (Draft.ofValue document) = .ok value

section Values

variable {α : Type} {decode : Decoder α} {document : Json} {value : α}

/-- A document that is already a value has levels enough for itself. -/
theorem Decodes.ofValue (h : Decodes decode document value) :
    decodeValue decode document = .ok value :=
  h (Nat.le_refl _)

/-- A string is read. -/
theorem decodes_string (text : String) : Decodes decodeString (.string text) text :=
  fun _ _ => rfl

/-- A natural number that has bits enough is read. -/
theorem decodes_nat {bits n : ℕ} (fits : n < Nat.pow 2 bits) :
    Decodes (decodeNat bits) (ofNat n) n :=
  fun _ _ => decodeNat_ofNat fits

/-- A whole number between the bounds is read. -/
theorem decodes_int {least greatest n : ℤ} (above : least ≤ n) (below : n ≤ greatest) :
    Decodes (decodeInt least greatest) (ofInt n) n :=
  fun _ _ => if_pos ⟨above, below⟩

/-- A value without objects is read as it is written. -/
theorem decodes_json (flat : IsFlat document) : Decodes decodeJson document document := by
  intro room levels
  unfold decodeJson
  rw [decodeContent_ofValue document levels, Except.map, flat.normal_eq]

/-- A value that may be absent is read when it is there. -/
theorem Decodes.some (h : Decodes decode document value) (there : document ≠ .null) :
    Decodes (decodeOption decode) document (some value) := by
  intro room levels
  have read := h levels
  cases document with
  | null => exact absurd rfl there
  | _ => exact congrArg (Except.map Option.some) read

/-- A list is read when its items are. -/
theorem decodes_list {encode : α → Json} {values : List α}
    (h : ∀ value ∈ values, Decodes decode (encode value) value) :
    Decodes (decodeList decode) (.array (values.map encode)) values := by
  intro room levels
  obtain ⟨inner, rfl, within⟩ := exists_room_array levels
  refine decodeList_ofValue fun value hv => h value hv ?_
  exact within (encode value) (List.mem_map_of_mem hv)

end Values

/-! ### Records -/

/-- The members restore a record from another, field after field, whenever enough levels are left
for the value of each. -/
def Restores {σ : Type} (fields : List (RecordField σ)) (members : List (String × Json))
    (record last : σ) : Prop :=
  ∀ ⦃room : ℕ⦄, (∀ member ∈ members, (Draft.ofValue member.2).depth ≤ room) →
    Fills room fields members record last

section Records

variable {σ α : Type} {name : String} {fields : List (RecordField σ)}
  {members : List (String × Json)} {record last : σ}

/-- A record is read from members that restore it. -/
theorem decodes_record {origin : Origin} (names : (fields.map RecordField.name).Nodup)
    (restores : Restores fields members record last) :
    Decodes (decodeRecord origin fields record) (.object members) last := by
  intro room levels
  obtain ⟨inner, rfl, within⟩ := exists_room_object levels
  exact decodeRecord_of_fills origin names (restores within)

/-- No field is left. -/
theorem Restores.nil (record : σ) : Restores [] [] record record :=
  fun _ _ => .nil record

/-- A field is restored by its decoder. -/
theorem Restores.of {required : Bool} {decode : Decoder α} {set : σ → α → σ} {value : Json}
    {found : α} (decodes : Decodes decode value found)
    (later : Restores fields members (set record found) last) :
    Restores (.of name required decode set :: fields) ((name, value) :: members) record last := by
  intro room within
  obtain ⟨here, others⟩ := List.forall_mem_cons.1 within
  exact .of (decodes here) (later others)

/-- An optional value is restored, or there is none before. -/
theorem Restores.optional {decode : Decoder (Option α)} {encode : α → Json}
    {set : σ → Option α → σ} {value : Option α} (absent : set record none = record)
    (decodes : ∀ found ∈ value, Decodes decode (encode found) (some found))
    (later : Restores fields members (set record value) last) :
    Restores (.of name false decode set :: fields) (optionalMember name encode value ++ members)
      record last := by
  intro room within
  obtain ⟨here, others⟩ := List.forall_mem_append.1 within
  refine .optional absent (fun found hf => decodes found hf ?_) (later others)
  obtain rfl : value = some found := hf
  exact here _ (List.mem_singleton_self _)

/-- A list is restored, or it is empty before. -/
theorem Restores.list {decode : Decoder (List α)} {encode : α → Json} {set : σ → List α → σ}
    {values : List α} (absent : set record [] = record)
    (decodes : Decodes decode (.array (values.map encode)) values)
    (later : Restores fields members (set record values) last) :
    Restores (.of name false decode set :: fields)
      (listMember name (values.map encode) ++ members) record last := by
  intro room within
  obtain ⟨here, others⟩ := List.forall_mem_append.1 within
  refine .list absent (fun filled => decodes ?_) (later others)
  obtain ⟨first, hf⟩ := List.exists_mem_of_ne_nil values filled
  exact here _ (mem_listMember name (List.mem_map_of_mem hf))

/-- A count is restored, or it is zero before. -/
theorem Restores.count {decode : Decoder ℕ} {set : σ → ℕ → σ} {count : ℕ}
    (absent : set record 0 = record) (decodes : Decodes decode (ofNat count) count)
    (later : Restores fields members (set record count) last) :
    Restores (.of name false decode set :: fields) (countMember name count ++ members)
      record last := by
  intro room within
  obtain ⟨-, others⟩ := List.forall_mem_append.1 within
  exact .count absent (decodes (Nat.zero_le room)) (later others)

end Records

/-! ### Maps -/

section Maps

variable {σ α : Type} {decode : Decoder α} {encode : α → Json} {add : σ → String → α → σ}

/-- Entries are read one by one and added to those before. -/
theorem decodeEntries_ofMembers {room : ℕ} {entries : List (String × α)}
    (reads : ∀ entry ∈ entries, decode room (Draft.ofValue (encode entry.2)) = .ok entry.2)
    (before : σ) :
    decodeEntries decode add room none before
        (Draft.ofMembers (entries.map fun entry => (entry.1, encode entry.2))) =
      .ok (entries.foldl (fun map entry => add map entry.1 entry.2) before) := by
  induction entries generalizing before with
  | nil => rfl
  | cons entry rest ih =>
    obtain ⟨first, others⟩ := List.forall_mem_cons.1 reads
    have later := ih others (add before entry.1 entry.2)
    rw [List.map_cons, Draft.ofMembers, decodeEntries]
    simp only [bind, Except.bind, first]
    exact later

/-- A map is read as what its entries add up to. -/
theorem decodes_map {entries : List (String × α)}
    (h : ∀ entry ∈ entries, Decodes decode (encode entry.2) entry.2) (empty : σ) :
    Decodes (decodeMap decode add empty)
      (.object (entries.map fun entry => (entry.1, encode entry.2)))
      (entries.foldl (fun map entry => add map entry.1 entry.2) empty) := by
  intro room levels
  obtain ⟨inner, rfl, within⟩ := exists_room_object levels
  rw [Draft.ofValue, decodeMap]
  refine decodeEntries_ofMembers (fun entry he => h entry he ?_) empty
  exact within _ (List.mem_map_of_mem he)

end Maps

end CodeDelta.Json
