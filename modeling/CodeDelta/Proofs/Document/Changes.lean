import CodeDelta.Proofs.Document.Laws
import CodeDelta.Proofs.Document.Structures
import CodeDelta.Proofs.Diff.Fields

/-!
# Changes read back

The documents of changed fields, records and counts are read back as what they write, when their
numbers fit the words that they are read into (`FieldChanges.decode_toJson`,
`Record.decode_toJson`, `Summary.decode_toJson`). Changed fields are read one by one into a map and
stand in its order already. A record keeps its own two members apart from those of its element,
which are put aside and read as an element once all members are known
(`Record.sortMembers_others`). The count of modified imports is not written, so it has to be zero.
-/

namespace CodeDelta

open Json

/-! ## Changed fields -/

namespace FieldChange

/-- A change whose values hold no object and whose numbers fit their words. -/
structure Fits (change : FieldChange) : Prop where
  /-- The numbers of the old value. -/
  wholeOld : IsWhole change.old
  /-- The old value. -/
  flatOld : IsFlat change.old
  /-- The numbers of the new value. -/
  wholeNew : IsWhole change.new
  /-- The new value. -/
  flatNew : IsFlat change.new
  /-- The difference is a number of 64 bits with its sign. -/
  delta : ∀ n ∈ change.delta, -Int.pow 2 63 ≤ n ∧ n ≤ Int.pow 2 63 - 1

/-- The members of a change in order, each part with the rest behind it. -/
def members (change : FieldChange) : List (String × Json) :=
  ("old", change.old) :: ("new", change.new) ::
    (optionalMember "delta" .ofInt change.delta ++
    (listMember "added" (change.added.map .string) ++
    (listMember "removed" (change.removed.map .string) ++ [])))

/-- The document of a change holds its members. -/
theorem toJson_eq (change : FieldChange) : change.toJson = .object change.members := by
  unfold toJson members
  simp only [List.append_assoc, List.cons_append, List.nil_append, List.append_nil]

/-- A written change is read. -/
theorem decode_toJson (origin : Origin) {change : FieldChange} (fits : change.Fits) :
    Decodes (decode origin) change.toJson change := by
  have delta : ∀ n ∈ change.delta,
      Decodes (decodeOption (decodeInt (-Int.pow 2 63) (Int.pow 2 63 - 1))) (ofInt n) (some n) := by
    intro n hn
    have read := decodes_int (fits.delta n hn).1 (fits.delta n hn).2
    exact read.some Json.noConfusion
  rw [toJson_eq]
  refine decodes_record
    (by decide : ["old", "new", "delta", "added", "removed"].Nodup) ?_
  cases change
  refine .of (decodes_json fits.flatOld) ?_
  refine .of (decodes_json fits.flatNew) ?_
  refine .optional rfl delta ?_
  refine .list rfl (decodes_list fun name _ => decodes_string name) ?_
  refine .list rfl (decodes_list fun name _ => decodes_string name) ?_
  exact .nil _

/-- The document of a change has no other numbers than those of its values and its difference. -/
theorem isWhole_toJson {change : FieldChange} (fits : change.Fits) : IsWhole change.toJson := by
  have texts : ∀ names : List String, ∀ name ∈ names.map Json.string, IsWhole name :=
    fun names => List.forall_mem_map.2 fun name _ => .string name
  have delta : ∀ n ∈ change.delta, IsWhole (ofInt n) := by
    intro n hn
    obtain ⟨least, greatest⟩ := fits.delta n hn
    have bound : Int.pow 2 63 - 1 < Int.pow 2 64 := by decide
    exact .number ⟨least, Int.lt_of_le_of_lt greatest bound⟩
  rw [toJson_eq]
  refine .object ?_
  unfold members
  simp only [List.forall_mem_cons, List.forall_mem_append]
  exact ⟨fits.wholeOld, fits.wholeNew, isWhole_optionalMember delta,
    isWhole_listMember (texts _), isWhole_listMember (texts _), List.forall_mem_nil _⟩

end FieldChange

/-- A member whose name comes after all others goes to the end. -/
theorem Json.insertMember_of_forall_lt {α : Type} {name : String} {value : α}
    {members : List (String × α)} (last : ∀ member ∈ members, member.1 < name) :
    insertMember name value members = members ++ [(name, value)] := by
  induction members with
  | nil => rfl
  | cons member rest ih =>
    obtain ⟨first, others⟩ := List.forall_mem_cons.1 last
    have after : ¬name < member.1 := String.lt_asymm first
    have differs : ¬name = member.1 := fun same => String.lt_irrefl name (same ▸ first)
    rw [insertMember, if_neg after, if_neg differs, ih others, List.cons_append]

namespace FieldChanges

/-- Changed fields whose changes fit. -/
def Fits (changes : FieldChanges) : Prop := ∀ entry ∈ changes.entries, entry.2.Fits

/-- Fields that come after all others, in order, go to the end. -/
theorem entries_foldl_insert {entries : List (String × FieldChange)} {before : FieldChanges}
    (ascending : Ascending (before.entries ++ entries)) :
    (entries.foldl (fun changes entry => changes.insert entry.1 entry.2) before).entries =
      before.entries ++ entries := by
  induction entries generalizing before with
  | nil => exact (List.append_nil _).symm
  | cons entry rest ih =>
    have last : ∀ member ∈ before.entries, member.1 < entry.1 := fun member hm =>
      (List.pairwise_append.1 ascending).2.2 member hm entry List.mem_cons_self
    have inserted : (before.insert entry.1 entry.2).entries = before.entries ++ [entry] :=
      insertMember_of_forall_lt last
    rw [← List.singleton_append, ← List.append_assoc, ← inserted] at ascending
    rw [List.foldl_cons, ih ascending, inserted, List.append_assoc, List.singleton_append]

/-- Changed fields are what their entries add up to. -/
theorem foldl_insert_entries (changes : FieldChanges) :
    changes.entries.foldl (fun changes entry => changes.insert entry.1 entry.2) .empty = changes :=
  ext_entries (entries_foldl_insert changes.ascending)

/-- Written changes are read. -/
theorem decode_toJson (origin : Origin) {changes : FieldChanges} (fits : changes.Fits) :
    Decodes (decode origin) changes.toJson changes := by
  have read : Decodes (decode origin) changes.toJson
      (changes.entries.foldl (fun changes entry => changes.insert entry.1 entry.2) .empty) :=
    decodes_map (fun entry he => FieldChange.decode_toJson origin (fits entry he)) empty
  rw [foldl_insert_entries] at read
  exact read

/-- The document of changed fields has no other numbers than those of the changes. -/
theorem isWhole_toJson {changes : FieldChanges} (fits : changes.Fits) : IsWhole changes.toJson :=
  .object (List.forall_mem_map.2 fun entry he => FieldChange.isWhole_toJson (fits entry he))

end FieldChanges

/-! ## Records -/

/-- The members of two lists are read one list after the other. -/
theorem Json.Draft.ofMembers_append (members others : List (String × Json)) :
    Draft.ofMembers (members ++ others) = Draft.ofMembers members ++ Draft.ofMembers others := by
  induction members with
  | nil => rfl
  | cons member rest ih =>
    obtain ⟨name, value⟩ := member
    rw [List.cons_append, Draft.ofMembers, Draft.ofMembers, ih, List.cons_append]

/-- An optional member has its name, if it is there. -/
theorem names_optionalMember {α : Type} (name : String) (encode : α → Json) (value : Option α) :
    ((optionalMember name encode value).map Prod.fst).Sublist [name] := by
  cases value with
  | none => exact List.nil_sublist _
  | some found => exact List.Sublist.refl _

/-- A list has its name, if it is there. -/
theorem names_listMember (name : String) (items : List Json) :
    ((listMember name items).map Prod.fst).Sublist [name] := by
  cases items with
  | nil => exact List.nil_sublist _
  | cons first rest => exact List.Sublist.refl _

/-- An element's members have the names of its fields, in order. -/
theorem Element.names_members (element : Element) :
    (element.members.map Prod.fst).Sublist ["name", "line", "line_count", "signature", "complexity",
      "bases", "methods", "file", "content"] := by
  have name : ((if element.name = "" then []
      else [("name", Json.string element.name)]).map Prod.fst).Sublist ["name"] := by
    split
    · exact List.nil_sublist _
    · exact List.Sublist.refl _
  rw [members_eq]
  simp only [List.map_append]
  exact name.append ((names_optionalMember _ _ _).append ((names_optionalMember _ _ _).append
    ((names_optionalMember _ _ _).append ((names_optionalMember _ _ _).append
    ((names_listMember _ _).append ((names_listMember _ _).append
    ((names_optionalMember _ _ _).append ((names_optionalMember _ _ _).append
      (List.Sublist.refl [])))))))))

namespace Record

/-- A record whose element and changes fit. -/
structure Fits (record : Record) : Prop where
  /-- The element. -/
  element : record.element.Fits
  /-- The changed fields. -/
  changes : record.changes.Fits

/-- A record's own members never stand among those of an element. -/
theorem name_ne_of_mem_members {element : Element} {member : String × Json}
    (h : member ∈ element.members) : member.1 ≠ "change" ∧ member.1 ≠ "changes" := by
  have known := element.names_members.subset (List.mem_map_of_mem h)
  constructor
  · intro same
    rw [same] at known
    exact absurd known (by decide)
  · intro same
    rw [same] at known
    exact absurd known (by decide)

/-- Members that are not the record's own are put aside, last first. -/
theorem sortMembers_others (origin : Origin) {room : ℕ} {members : List (String × Json)}
    (names : ∀ member ∈ members, member.1 ≠ "change" ∧ member.1 ≠ "changes")
    (within : ∀ member ∈ members, (Draft.ofValue member.2).depth ≤ room) (parts : Parts)
    (rest : List (Literal × Draft)) :
    sortMembers origin room none parts (Draft.ofMembers members ++ rest) =
      sortMembers origin room none { parts with others := members.reverse ++ parts.others }
        rest := by
  induction members generalizing parts with
  | nil => rfl
  | cons member members ih =>
    obtain ⟨name, value⟩ := member
    obtain ⟨⟨noKind, noChanges⟩, names⟩ := List.forall_mem_cons.1 names
    obtain ⟨first, within⟩ := List.forall_mem_cons.1 within
    have content := decodeContent_ofValue value first
    rw [Draft.ofMembers, List.cons_append, sortMembers]
    simp only [bind, Except.bind, if_neg noKind, if_neg noChanges, content, pure, Except.pure]
    rw [ih names within, List.reverse_cons, List.append_assoc, List.singleton_append]

/-- The members of a written record are sorted into its parts. -/
theorem sortMembers_toJson (origin : Origin) {record : Record} (fits : record.Fits) {room : ℕ}
    (withinElement : ∀ member ∈ record.element.members, (Draft.ofValue member.2).depth ≤ room)
    (withinChanges : record.changes.isEmpty = false →
      (Draft.ofValue record.changes.toJson).depth ≤ room) :
    sortMembers origin room none ⟨none, none, []⟩ (Draft.ofMembers (("change",
        .string record.kind.word) :: (record.element.members ++
          if record.changes.isEmpty then [] else [("changes", record.changes.toJson)]))) =
      .ok ⟨some record.kind, if record.changes.isEmpty then none else some record.changes,
        record.element.members.reverse⟩ := by
  have kind : ChangeKind.decode origin room (Draft.ofValue (.string record.kind.word)) =
      .ok record.kind := by cases record.kind <;> rfl
  have others := sortMembers_others origin (fun _ hm => name_ne_of_mem_members hm) withinElement
    ⟨some record.kind, none, []⟩
  rw [Draft.ofMembers, sortMembers]
  simp only [bind, Except.bind, if_pos, Option.isSome_none, Bool.false_eq_true, if_false, kind,
    pure, Except.pure]
  rw [Draft.ofMembers_append, others, List.append_nil]
  cases empty : record.changes.isEmpty with
  | true => rfl
  | false =>
    have changes := FieldChanges.decode_toJson origin fits.changes (withinChanges empty)
    simp only [Bool.false_eq_true, if_false, Draft.ofMembers, sortMembers, bind, Except.bind,
      changes]
    rfl

/-- A written record is read. -/
theorem decode_toJson (origin : Origin) {record : Record} (fits : record.Fits) :
    Decodes (decode origin) record.toJson record := by
  intro room levels
  rw [toJson, List.append_assoc, List.singleton_append] at levels ⊢
  obtain ⟨inner, rfl, within⟩ := exists_room_object levels
  obtain ⟨-, within⟩ := List.forall_mem_cons.1 within
  obtain ⟨withinElement, withinChanges⟩ := List.forall_mem_append.1 within
  have sorted := sortMembers_toJson origin fits withinElement (by
    intro some_change
    rw [some_change] at withinChanges
    exact withinChanges _ (List.mem_singleton_self _))
  have element : decodeValue (Element.decode .value) (.object record.element.members) =
      .ok record.element := Element.decode_toJson .value fits.element (Nat.le_refl _)
  rw [Draft.ofValue, decode, sorted]
  simp only [bind, Except.bind, List.reverse_reverse, element]
  cases empty : record.changes.isEmpty with
  | true =>
    have none_changed : record.changes = .empty :=
      FieldChanges.ext_entries (List.isEmpty_iff.1 empty)
    cases record
    subst none_changed
    rfl
  | false => rfl

/-- The document of a record has no other numbers than those of its element and its changes. -/
theorem isWhole_toJson {record : Record} (fits : record.Fits) : IsWhole record.toJson := by
  have element : ∀ member ∈ record.element.members, IsWhole member.2 := by
    have whole := Element.isWhole_toJson fits.element
    rw [Element.toJson] at whole
    cases whole with
    | object whole => exact whole
  have changes : ∀ member ∈ if record.changes.isEmpty then []
      else [("changes", record.changes.toJson)], IsWhole member.2 := by
    split
    · exact List.forall_mem_nil _
    · exact List.forall_mem_singleton.2 (FieldChanges.isWhole_toJson fits.changes)
  refine .object ?_
  simp only [List.forall_mem_append]
  exact ⟨⟨List.forall_mem_singleton.2 (.string _), element⟩, changes⟩

end Record

/-! ## Counts -/

namespace Counts

/-- Counts that fit 64 bits. -/
def Fits (counts : Counts) : Prop := ∀ kind, counts.get kind < Nat.pow 2 64

/-- Written counts are read. -/
theorem decode_toJson (origin : Origin) {counts : Counts} (fits : counts.Fits) :
    Decodes (decodeRecord origin fields .zero) counts.toJson counts := by
  refine decodes_record (by decide : ["added", "removed", "modified"].Nodup) ?_
  cases counts
  refine .of (decodes_nat (fits .added)) ?_
  refine .of (decodes_nat (fits .removed)) ?_
  refine .of (decodes_nat (fits .modified)) ?_
  exact .nil _

/-- The document of counts has no numbers but the counts. -/
theorem isWhole_toJson {counts : Counts} (fits : counts.Fits) : IsWhole counts.toJson := by
  refine .object ?_
  simp only [List.forall_mem_cons]
  exact ⟨isWhole_ofNat (fits .added), isWhole_ofNat (fits .removed),
    isWhole_ofNat (fits .modified), List.forall_mem_nil _⟩

end Counts

namespace Summary

/-- A summary whose counts fit 64 bits. -/
def Fits (summary : Summary) : Prop := ∀ category, (summary.get category).Fits

/-- A written summary is read, when no import is counted as modified. -/
theorem decode_toJson (origin : Origin) {summary : Summary} (fits : summary.Fits)
    (unmodified : summary.imports.modified = 0) :
    Decodes (decode origin) summary.toJson summary := by
  have imports : Decodes (decodeRecord origin (Counts.fields.take 2) .zero)
      (.object [("added", .ofNat summary.imports.added),
        ("removed", .ofNat summary.imports.removed)])
      summary.imports := by
    have count := fits .importDecl
    refine decodes_record (by decide : ["added", "removed"].Nodup) ?_
    refine .of (decodes_nat (count .added)) ?_
    refine .of (decodes_nat (count .removed)) ?_
    -- What is left of the counts is the zero that stands for the third.
    have rest : (⟨summary.imports.added, summary.imports.removed, 0⟩ : Counts) =
        summary.imports := by rw [← unmodified]
    rw [← rest]
    exact .nil _
  refine decodes_record (by decide : ["functions", "classes", "imports"].Nodup) ?_
  cases summary
  refine .of (Counts.decode_toJson origin (fits .function)) ?_
  refine .of (Counts.decode_toJson origin (fits .classDef)) ?_
  refine .of imports ?_
  exact .nil _

/-- The document of a summary has no numbers but the counts. -/
theorem isWhole_toJson {summary : Summary} (fits : summary.Fits) : IsWhole summary.toJson := by
  have imports : IsWhole (.object [("added", .ofNat summary.imports.added),
      ("removed", .ofNat summary.imports.removed)]) := by
    refine .object ?_
    simp only [List.forall_mem_cons]
    exact ⟨isWhole_ofNat (fits .importDecl .added), isWhole_ofNat (fits .importDecl .removed),
      List.forall_mem_nil _⟩
  refine .object ?_
  simp only [List.forall_mem_cons]
  exact ⟨Counts.isWhole_toJson (fits .function), Counts.isWhole_toJson (fits .classDef), imports,
    List.forall_mem_nil _⟩

end Summary

namespace Detail

/-- The records of a comparison, all of which fit. -/
def Fits (detail : Detail) : Prop := ∀ category, ∀ record ∈ detail.get category, record.Fits

/-- Written records are read. -/
theorem decode_toJson (origin : Origin) {detail : Detail} (fits : detail.Fits) :
    Decodes (decode origin) detail.toJson detail := by
  have records : ∀ category, Decodes (decodeList (Record.decode origin))
      (.array ((detail.get category).map Record.toJson)) (detail.get category) :=
    fun category => decodes_list fun record hr =>
      Record.decode_toJson origin (fits category record hr)
  refine decodes_record (by decide : ["functions", "classes", "imports"].Nodup) ?_
  cases detail
  refine .of (records .function) ?_
  refine .of (records .classDef) ?_
  refine .of (records .importDecl) ?_
  exact .nil _

/-- The document of all records has no other numbers than those of each. -/
theorem isWhole_toJson {detail : Detail} (fits : detail.Fits) : IsWhole detail.toJson :=
  .object (List.forall_mem_map.2 fun category _ => .array (List.forall_mem_map.2 fun record hr =>
    Record.isWhole_toJson (fits category record hr)))

end Detail

end CodeDelta
