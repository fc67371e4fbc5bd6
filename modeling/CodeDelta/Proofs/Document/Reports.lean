import CodeDelta.Proofs.Document.Changes

/-!
# Reports read back

The documents of reports and of one element's comparison are read back as what they write
(`Report.decode_toJson`, `ElementDiff.decode_toJson`). The fields of an element's comparison depend
on its type, which may stand anywhere: the other members are put aside
(`ElementDiff.takeType_others`) and read once the type is known.
-/

namespace CodeDelta

open Json

/-! ## Reports -/

namespace Side

/-- A side whose counts fit 64 bits. -/
structure Fits (side : Side) : Prop where
  /-- The number of files. -/
  fileCount : ∀ n ∈ side.fileCount, n < Nat.pow 2 64
  /-- The number of skipped files. -/
  skippedFiles : side.skippedFiles < Nat.pow 2 64

/-- The members of a side in order, each part with the rest behind it. -/
def members (side : Side) : List (String × Json) :=
  ("uri", .string side.uri) :: ("type", .string side.kind.word) ::
    (optionalMember "file_count" .ofNat side.fileCount ++
    (countMember "skipped_files" side.skippedFiles ++ []))

/-- The document of a side holds its members. -/
theorem toJson_eq (side : Side) : side.toJson = .object side.members := by
  unfold toJson members
  simp only [List.cons_append, List.nil_append, List.append_nil]

/-- A written side is read. -/
theorem decode_toJson (origin : Origin) {side : Side} (fits : side.Fits) :
    Decodes (decode origin) side.toJson side := by
  have files : ∀ n ∈ side.fileCount, Decodes (decodeOption decodeCount) (ofNat n) (some n) :=
    fun n hn => (decodes_nat (fits.fileCount n hn)).some Json.noConfusion
  rw [toJson_eq]
  refine decodes_record (by decide : ["uri", "type", "file_count", "skipped_files"].Nodup) ?_
  cases side
  refine .of (decodes_string _) ?_
  refine .of (Structure.decodes_kind origin _) ?_
  refine .optional rfl files ?_
  refine .count rfl (decodes_nat fits.skippedFiles) ?_
  exact .nil _

/-- The document of a side has no other numbers than its counts. -/
theorem isWhole_toJson {side : Side} (fits : side.Fits) : IsWhole side.toJson := by
  rw [toJson_eq]
  refine .object ?_
  unfold members
  simp only [List.forall_mem_cons, List.forall_mem_append]
  exact ⟨.string _, .string _, isWhole_optionalNat fits.fileCount,
    isWhole_countMember fits.skippedFiles, List.forall_mem_nil _⟩

end Side

namespace Report

/-- A report whose parts fit, and which counts no import as modified. -/
structure Fits (report : Report) : Prop where
  /-- The old side. -/
  left : report.left.Fits
  /-- The new side. -/
  right : report.right.Fits
  /-- The counts. -/
  summary : report.summary.Fits
  /-- No import is modified. -/
  unmodified : report.summary.imports.modified = 0
  /-- The records. -/
  detail : report.detail.Fits

/-- A written report is read. -/
theorem decode_toJson (origin : Origin) {report : Report} (fits : report.Fits) :
    Decodes (decode origin) report.toJson report := by
  refine decodes_record (by decide : ["left", "right", "summary", "diff"].Nodup) ?_
  cases report
  refine .of (Side.decode_toJson origin fits.left) ?_
  refine .of (Side.decode_toJson origin fits.right) ?_
  refine .of (Summary.decode_toJson origin fits.summary fits.unmodified) ?_
  refine .of (Detail.decode_toJson origin fits.detail) ?_
  exact .nil _

/-- The document of a report has no other numbers than those of its parts. -/
theorem isWhole_toJson {report : Report} (fits : report.Fits) : IsWhole report.toJson := by
  refine .object ?_
  simp only [List.forall_mem_cons]
  exact ⟨Side.isWhole_toJson fits.left, Side.isWhole_toJson fits.right,
    Summary.isWhole_toJson fits.summary, Detail.isWhole_toJson fits.detail, List.forall_mem_nil _⟩

end Report

/-! ## One element -/

namespace ElementDiff

/-- A comparison of one element whose elements and changes fit. -/
inductive Fits : ElementDiff → Prop
  | notFound (name : String) : Fits (.notFound name)
  | added (name : String) {element : Element} (fits : element.Fits) : Fits (.added name element)
  | removed (name : String) {element : Element} (fits : element.Fits) :
    Fits (.removed name element)
  | unchanged (name : String) {element : Element} (fits : element.Fits) :
    Fits (.unchanged name element)
  | modified (name : String) {old new : Element} {changes : FieldChanges} (fitsOld : old.Fits)
    (fitsNew : new.Fits) (fits : changes.Fits) : Fits (.modified name old new changes)

/-- The members behind the type. -/
def others (diff : ElementDiff) : List (String × Json) :=
  ("name", .string diff.name) ::
    match diff with
    | .notFound _ => []
    | .added _ element | .removed _ element | .unchanged _ element =>
      [("element", element.toJson)]
    | .modified _ old new changes =>
      [("old", old.toJson), ("new", new.toJson), ("changes", changes.toJson)]

/-- The document of a comparison starts with its type. -/
theorem toJson_eq (diff : ElementDiff) :
    diff.toJson = .object (("type", .string diff.word) :: diff.others) := by
  cases diff <;> rfl

/-- The type stands only once. -/
theorem name_ne_of_mem_others {diff : ElementDiff} :
    ∀ member ∈ diff.others, member.1 ≠ "type" := by
  cases diff <;> simp [others]

/-- Members behind the type are put aside. -/
theorem takeType_others {room : ℕ} (type : String) {members : List (String × Json)}
    (before : List (String × Json)) (names : ∀ member ∈ members, member.1 ≠ "type")
    (within : ∀ member ∈ members, (Draft.ofValue member.2).depth ≤ room) :
    takeType room none (some type) before (Draft.ofMembers members) =
      .ok (some type, before.reverse ++ members) := by
  induction members generalizing before with
  | nil =>
    rw [List.append_nil]
    rfl
  | cons member rest ih =>
    obtain ⟨name, value⟩ := member
    obtain ⟨differs, names⟩ := List.forall_mem_cons.1 names
    obtain ⟨first, within⟩ := List.forall_mem_cons.1 within
    have content := decodeContent_ofValue value first
    rw [Draft.ofMembers, takeType]
    simp only [bind, Except.bind, if_neg differs, content]
    rw [ih ((name, value) :: before) names within, List.reverse_cons, List.append_assoc,
      List.singleton_append]

/-- A type is read from its word. -/
theorem decodeType_word (diff : ElementDiff) :
    decodeType (Draft.ofValue (.string diff.word)) = .ok diff.word := by
  cases diff <;> rfl

/-- What stands behind a type is read when it restores the parts that the type is made of. -/
theorem ofContent_of_restores {type : String} {fields : List (RecordField Parts)}
    {make : Parts → ElementDiff} {members : List (String × Json)} {diff : ElementDiff}
    (parts : Parts) (shape : shape? type = some (fields, make)) (made : make parts = diff)
    (names : (fields.map RecordField.name).Nodup)
    (restores : Restores fields members .blank parts) :
    ofContent type (.object members) = .ok diff := by
  have read : decodeValue (decodeRecord .value fields Parts.blank) (.object members) = .ok parts :=
    (decodes_record names restores).ofValue
  unfold ofContent
  rw [shape, ← made]
  exact congrArg (Except.map make) read

/-- What stands behind the type of a comparison is read. -/
theorem ofContent_others {diff : ElementDiff} (fits : diff.Fits) :
    ofContent diff.word (.object diff.others) = .ok diff := by
  have element : ∀ {element : Element}, element.Fits →
      Decodes (Element.decode .value) element.toJson element :=
    fun fits _ levels => Element.decode_toJson .value fits levels
  cases fits with
  | notFound name =>
    refine ofContent_of_restores { Parts.blank with name } rfl rfl
      (by decide : ["name"].Nodup) ?_
    exact .of (decodes_string name) (.nil _)
  | @added name found fits =>
    refine ofContent_of_restores { Parts.blank with name, element := found } rfl rfl
      (by decide : ["name", "element"].Nodup) ?_
    exact .of (decodes_string name) (.of (element fits) (.nil _))
  | @removed name found fits =>
    refine ofContent_of_restores { Parts.blank with name, element := found } rfl rfl
      (by decide : ["name", "element"].Nodup) ?_
    exact .of (decodes_string name) (.of (element fits) (.nil _))
  | @unchanged name found fits =>
    refine ofContent_of_restores { Parts.blank with name, element := found } rfl rfl
      (by decide : ["name", "element"].Nodup) ?_
    exact .of (decodes_string name) (.of (element fits) (.nil _))
  | @modified name old new changes fitsOld fitsNew fits =>
    refine ofContent_of_restores ⟨name, .blank, old, new, changes⟩ rfl rfl
      (by decide : ["name", "old", "new", "changes"].Nodup) ?_
    exact .of (decodes_string name) (.of (element fitsOld) (.of (element fitsNew)
      (.of (FieldChanges.decode_toJson .value fits) (.nil _))))

/-- A written comparison of one element is read. -/
theorem decode_toJson {diff : ElementDiff} (fits : diff.Fits) :
    Decodes decode diff.toJson diff := by
  intro room levels
  rw [toJson_eq] at levels ⊢
  obtain ⟨inner, rfl, within⟩ := exists_room_object levels
  obtain ⟨-, within⟩ := List.forall_mem_cons.1 within
  have taken := takeType_others diff.word [] name_ne_of_mem_others within
  rw [List.reverse_nil, List.nil_append] at taken
  rw [Draft.ofValue, decode, Draft.ofMembers, takeType]
  simp only [bind, Except.bind, if_pos, Option.isSome_none, Bool.false_eq_true, if_false,
    decodeType_word, taken]
  exact ofContent_others fits

/-- The document of a comparison of one element has no other numbers than those of its parts. -/
theorem isWhole_toJson {diff : ElementDiff} (fits : diff.Fits) : IsWhole diff.toJson := by
  rw [toJson_eq]
  refine .object (List.forall_mem_cons.2 ⟨.string _, List.forall_mem_cons.2 ⟨.string _, ?_⟩⟩)
  cases fits with
  | notFound name => exact List.forall_mem_nil _
  | added name fits => exact List.forall_mem_singleton.2 (Element.isWhole_toJson fits)
  | removed name fits => exact List.forall_mem_singleton.2 (Element.isWhole_toJson fits)
  | unchanged name fits => exact List.forall_mem_singleton.2 (Element.isWhole_toJson fits)
  | modified name fitsOld fitsNew fits =>
    simp only [List.forall_mem_cons]
    exact ⟨Element.isWhole_toJson fitsOld, Element.isWhole_toJson fitsNew,
      FieldChanges.isWhole_toJson fits, List.forall_mem_nil _⟩

end ElementDiff

end CodeDelta
