import CodeDelta.Proofs.Document.Laws

/-!
# Structures read back

The documents of elements and structures are read back as what they write, when their numbers fit
the words that they are read into and enough levels are left for their methods
(`Element.decode_toJson`, `Structure.decode_toJson`). The induction is on the methods: each level of
methods takes two levels of the document, that of the list and that of the method. As the decoder
of elements counts these levels by two, the law for records does not apply to it.
-/

namespace CodeDelta

open Json

/-- A number of 32 bits that may be absent is read. -/
theorem decodeSmall_ofNat {value : Option ℕ} (fits : ∀ n ∈ value, n < Nat.pow 2 32) {room : ℕ} :
    ∀ n ∈ value, decodeSmall room (Draft.ofValue (ofNat n)) = .ok (some n) :=
  fun n hn => congrArg (Except.map some) (decodeNat_ofNat (fits n hn))

/-- A text that may be absent is read. -/
theorem decodeText?_string {room : ℕ} {value : Option String} :
    ∀ text ∈ value, decodeText? room (Draft.ofValue (.string text)) = .ok (some text) :=
  fun _ _ => rfl

namespace Element

/-- An element whose numbers, and those of its methods, fit 32 bits. -/
inductive Fits : Element → Prop
  | mk {element : Element} (line : ∀ n ∈ element.line, n < Nat.pow 2 32)
      (lineCount : ∀ n ∈ element.lineCount, n < Nat.pow 2 32)
      (complexity : ∀ n ∈ element.complexity, n < Nat.pow 2 32)
      (methods : ∀ method ∈ element.methods, Fits method) : Fits element

/-- Elements are written one by one. -/
theorem encodeAll_eq_map (elements : List Element) : encodeAll elements = elements.map toJson := by
  induction elements with
  | nil => rw [encodeAll, List.map_nil]
  | cons element rest ih => rw [encodeAll, ih, List.map_cons, toJson]

/-- The members of an element in order, each part with the rest behind it. -/
theorem members_eq (element : Element) : element.members =
    (if element.name = "" then [] else [("name", .string element.name)]) ++
      (optionalMember "line" .ofNat element.line ++
      (optionalMember "line_count" .ofNat element.lineCount ++
      (optionalMember "signature" .string element.signature ++
      (optionalMember "complexity" .ofNat element.complexity ++
      (listMember "bases" (element.bases.map .string) ++
      (listMember "methods" (element.methods.map toJson) ++
      (optionalMember "file" .string element.file ++
      (optionalMember "content" .string element.content ++ [])))))))) := by
  cases element
  rw [members, encodeAll_eq_map, List.append_nil]

/-- The members of an element fill it, when its bases and methods can be read. -/
theorem Fits.fills {element : Element} (fits : element.Fits) {methods : Decoder (List Element)}
    {room : ℕ}
    (readBases : element.bases ≠ [] →
      decodeList decodeString room (Draft.ofValue (.array (element.bases.map .string))) =
        .ok element.bases)
    (readMethods : element.methods ≠ [] →
      methods room (Draft.ofValue (.array (element.methods.map toJson))) = .ok element.methods) :
    Fills room (fields methods) element.members blank element := by
  obtain ⟨line, lineCount, complexity, -⟩ := fits
  rw [members_eq]
  cases element
  refine .text rfl ?_
  refine .optional rfl (decodeSmall_ofNat line) ?_
  refine .optional rfl (decodeSmall_ofNat lineCount) ?_
  refine .optional rfl decodeText?_string ?_
  refine .optional rfl (decodeSmall_ofNat complexity) ?_
  refine .list rfl readBases ?_
  refine .list rfl readMethods ?_
  refine .optional rfl decodeText?_string ?_
  refine .optional rfl decodeText?_string ?_
  exact .nil _

/-- The names of an element's fields differ. -/
theorem nodup_names_fields (methods : Decoder (List Element)) :
    ((fields methods).map RecordField.name).Nodup :=
  (by decide : ["name", "line", "line_count", "signature", "complexity", "bases", "methods", "file",
    "content"].Nodup)

/-- A base stands two levels below its element. -/
theorem depth_base_le {element : Element} {base : String} (h : base ∈ element.bases) :
    (Draft.ofValue (.string base)).depth + 2 ≤ (Draft.ofValue element.toJson).depth := by
  have listed : Json.string base ∈ element.bases.map .string := List.mem_map_of_mem h
  have written : ("bases", .array (element.bases.map .string)) ∈ element.members := by
    rw [members_eq]
    simp only [List.mem_append, mem_listMember "bases" listed, true_or, or_true]
  exact depth_listed_le listed written

/-- A method stands two levels below its element. -/
theorem depth_method_le {element method : Element} (h : method ∈ element.methods) :
    (Draft.ofValue method.toJson).depth + 2 ≤ (Draft.ofValue element.toJson).depth := by
  have listed : method.toJson ∈ element.methods.map toJson := List.mem_map_of_mem h
  have written : ("methods", .array (element.methods.map toJson)) ∈ element.members := by
    rw [members_eq]
    simp only [List.mem_append, mem_listMember "methods" listed, true_or, or_true]
  exact depth_listed_le listed written

/-- A written element is read, when enough levels are left. -/
theorem decode_toJson (origin : Origin) {element : Element} (fits : element.Fits) {room : ℕ}
    (levels : (Draft.ofValue element.toJson).depth ≤ room) :
    decode origin room (Draft.ofValue element.toJson) = .ok element := by
  induction fits generalizing room with
  | @mk element line lineCount complexity methods ih =>
    have fits : element.Fits := ⟨line, lineCount, complexity, methods⟩
    match room, levels with
    | 0, levels =>
      rw [toJson, Draft.ofValue, Draft.depth] at levels
      exact absurd levels (Nat.not_succ_le_zero _)
    | 1, levels =>
      -- One level is that of the element, which has neither bases nor methods.
      refine decodeRecord_of_fills origin (nodup_names_fields _) (fits.fills ?_ ?_)
      · intro filled
        obtain ⟨base, hb⟩ := List.exists_mem_of_ne_nil _ filled
        have deep := Nat.le_trans (depth_base_le hb) levels
        exact absurd (Nat.le_trans (Nat.le_add_left 2 _) deep) (by decide)
      · intro filled
        obtain ⟨method, hm⟩ := List.exists_mem_of_ne_nil _ filled
        have deep := Nat.le_trans (depth_method_le hm) levels
        exact absurd (Nat.le_trans (Nat.le_add_left 2 _) deep) (by decide)
    | room + 2, levels =>
      refine decodeRecord_of_fills origin (nodup_names_fields _) (fits.fills ?_ ?_)
      · intro _
        exact decodeList_ofValue fun _ _ => rfl
      · intro _
        refine decodeList_ofValue fun method hm => ih method hm ?_
        exact Nat.le_of_add_le_add_right (Nat.le_trans (depth_method_le hm) levels)

/-- The document of an element has no other numbers than its own. -/
theorem isWhole_toJson {element : Element} (fits : element.Fits) : IsWhole element.toJson := by
  have small : ∀ {value : Option ℕ}, (∀ n ∈ value, n < Nat.pow 2 32) →
      ∀ n ∈ value, n < Nat.pow 2 64 :=
    fun fits n hn => Nat.lt_trans (fits n hn) (by decide)
  induction fits with
  | @mk element line lineCount complexity methods ih =>
    have name : ∀ member ∈ if element.name = "" then [] else [("name", Json.string element.name)],
        IsWhole member.2 := by
      split
      · exact List.forall_mem_nil _
      · exact List.forall_mem_singleton.2 (.string _)
    have bases : ∀ base ∈ element.bases.map Json.string, IsWhole base :=
      List.forall_mem_map.2 fun base _ => .string base
    have methods : ∀ method ∈ element.methods.map toJson, IsWhole method := List.forall_mem_map.2 ih
    refine .object ?_
    rw [members_eq]
    simp only [List.forall_mem_append]
    exact ⟨name, isWhole_optionalNat (small line), isWhole_optionalNat (small lineCount),
      isWhole_optionalText _, isWhole_optionalNat (small complexity), isWhole_listMember bases,
      isWhole_listMember methods, isWhole_optionalText _, isWhole_optionalText _,
      List.forall_mem_nil _⟩

end Element

namespace Structure

/-- A structure whose counts fit 64 bits and whose elements' numbers fit 32. -/
structure Fits (structure_ : Structure) : Prop where
  /-- The number of files. -/
  fileCount : ∀ n ∈ structure_.fileCount, n < Nat.pow 2 64
  /-- The number of skipped files. -/
  skippedFiles : structure_.skippedFiles < Nat.pow 2 64
  /-- All elements. -/
  elements : ∀ category, ∀ element ∈ structure_.elements category, element.Fits

/-- The members of a structure in order, each part with the rest behind it. -/
def members (structure_ : Structure) : List (String × Json) :=
  ("type", .string structure_.kind.word) ::
    (optionalMember "path" .string structure_.path ++
    (optionalMember "language" .string structure_.language ++
    (optionalMember "file_count" .ofNat structure_.fileCount ++
    (countMember "skipped_files" structure_.skippedFiles ++
    [("functions", .array (structure_.functions.map Element.toJson)),
      ("classes", .array (structure_.classes.map Element.toJson)),
      ("imports", .array (structure_.imports.map Element.toJson))]))))

/-- The document of a structure holds its members. -/
theorem toJson_eq (structure_ : Structure) : structure_.toJson = .object structure_.members := by
  unfold toJson members
  simp only [Element.encodeAll_eq_map, List.append_assoc, List.cons_append, List.nil_append]

/-- The names of a structure's fields differ. -/
theorem nodup_names_fields (origin : Origin) :
    ((fields origin).map RecordField.name).Nodup :=
  (by decide : ["type", "path", "language", "file_count", "skipped_files", "functions", "classes",
    "imports"].Nodup)

/-- A kind is read from its word. -/
theorem decodes_kind (origin : Origin) (kind : Kind) :
    Decodes (Kind.decode origin) (.string kind.word) kind :=
  fun _ _ => by cases kind <;> rfl

/-- A written structure is read. -/
theorem decode_toJson (origin : Origin) {structure_ : Structure} (fits : structure_.Fits) :
    Decodes (decode origin) structure_.toJson structure_ := by
  have text : ∀ text : String, Decodes decodeText? (.string text) (some text) :=
    fun text => (decodes_string text).some Json.noConfusion
  have files : ∀ n ∈ structure_.fileCount, Decodes (decodeOption decodeCount) (ofNat n) (some n) :=
    fun n hn => (decodes_nat (fits.fileCount n hn)).some Json.noConfusion
  have elements : ∀ category, Decodes (decodeList (Element.decode origin))
      (.array ((structure_.elements category).map Element.toJson))
      (structure_.elements category) :=
    fun category => decodes_list fun element he _ levels =>
      Element.decode_toJson origin (fits.elements category element he) levels
  rw [toJson_eq]
  refine decodes_record (nodup_names_fields origin) ?_
  cases structure_
  refine .of (decodes_kind origin _) ?_
  refine .optional rfl (fun path _ => text path) ?_
  refine .optional rfl (fun language _ => text language) ?_
  refine .optional rfl files ?_
  refine .count rfl (decodes_nat fits.skippedFiles) ?_
  refine .of (elements .function) ?_
  refine .of (elements .classDef) ?_
  refine .of (elements .importDecl) ?_
  exact .nil _

/-- The document of a structure has no other numbers than its own. -/
theorem isWhole_toJson {structure_ : Structure} (fits : structure_.Fits) :
    IsWhole structure_.toJson := by
  have elements : ∀ category,
      IsWhole (.array ((structure_.elements category).map Element.toJson)) :=
    fun category => .array (List.forall_mem_map.2 fun element he =>
      Element.isWhole_toJson (fits.elements category element he))
  rw [toJson_eq]
  refine .object ?_
  unfold members
  simp only [List.forall_mem_cons, List.forall_mem_append]
  exact ⟨.string _, isWhole_optionalText _, isWhole_optionalText _,
    isWhole_optionalNat fits.fileCount, isWhole_countMember fits.skippedFiles, elements .function,
    elements .classDef, elements .importDecl, List.forall_mem_nil _⟩

end Structure

end CodeDelta
