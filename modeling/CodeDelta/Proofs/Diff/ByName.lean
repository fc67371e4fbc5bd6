import CodeDelta.Diff.Elements
import CodeDelta.Proofs.Diff.Lookup
import CodeDelta.Proofs.Diff.Records

/-!
# One name in a comparison

A name is compared in two ways: on its own, by the first element that it finds on each side, and
within the comparison of the structures, by the last element of its key. Where no function and no
class shares its name with another of its side, and files do not count, both ways see the same
elements: the records of the name are those that its own comparison stands for
(`records_of_found`, `records_of_found_right`, `records_of_found_left`).
-/

namespace CodeDelta

/-- The records that the outcome stands for. -/
def ElementDiff.records : ElementDiff → List Record
  | notFound _ | unchanged _ _ => []
  | added _ element => [.added element]
  | removed _ element => [.removed element]
  | modified _ _ new changes => [.modified new changes]

namespace ElementDiff

variable (diff : ElementDiff) (element : Element) (changes : FieldChanges)

/-- Only the outcome `added` stands for an added record. -/
theorem added_mem_records :
    .added element ∈ diff.records ↔ diff = .added diff.name element := by
  cases diff <;> simp [records, name, Record.added, Record.removed, Record.modified, eq_comm]

/-- Only the outcome `removed` stands for a removed record. -/
theorem removed_mem_records :
    .removed element ∈ diff.records ↔ diff = .removed diff.name element := by
  cases diff <;> simp [records, name, Record.added, Record.removed, Record.modified, eq_comm]

/-- Only the outcome `modified` stands for a modified record, with the new element. -/
theorem modified_mem_records :
    .modified element changes ∈ diff.records ↔
      ∃ old, diff = .modified diff.name old element changes := by
  cases diff <;> simp [records, name, Record.added, Record.removed, Record.modified, eq_comm]

/-- A name that was not found or is unchanged has no records. -/
theorem records_eq_nil :
    diff.records = [] ↔
      diff = .notFound diff.name ∨ ∃ element, diff = .unchanged diff.name element := by
  cases diff <;> simp [records, name]

end ElementDiff

namespace Structure

/-- The outcome tells the name that was looked up. -/
@[simp]
theorem name_diffElement (left right : Structure) (name : String) :
    (left.diffElement right name).name = name := by
  unfold diffElement
  split
  · rfl
  · rfl
  · rfl
  · simp only
    split_ifs <;> rfl

/-- No two functions share a name, and no two classes do. -/
structure NamesApart (structure_ : Structure) : Prop where
  /-- Functions are told apart by their names. -/
  functions : (structure_.functions.map Element.name).Nodup
  /-- Classes are told apart by their names. -/
  classes : (structure_.classes.map Element.name).Nodup

instance (structure_ : Structure) : Decidable structure_.NamesApart :=
  decidable_of_iff _ ⟨fun h => ⟨h.1, h.2⟩, fun h : NamesApart structure_ =>
    And.intro h.functions h.classes⟩

/-- The name finds an element of the category's own list, and no method of a class. -/
def FindsAtTop (structure_ : Structure) (name : String) (category : Category) (element : Element) :
    Prop :=
  structure_.find? name = some (category, element) ∧ element ∈ structure_.elements category

instance (structure_ : Structure) (name : String) (category : Category) (element : Element) :
    Decidable (structure_.FindsAtTop name category element) :=
  inferInstanceAs (Decidable (_ ∧ _))

namespace FindsAtTop

variable {structure_ : Structure} {name : String} {category : Category} {element : Element}

/-- An element that is found has the name. -/
theorem name_eq (h : structure_.FindsAtTop name category element) : element.name = name :=
  (found_of_find? h.1).name_eq

/-- No import is ever found. -/
theorem ne_importDecl (h : structure_.FindsAtTop name category element) :
    category ≠ .importDecl :=
  (found_of_find? h.1).ne_importDecl

/-- An element found by a name that is not empty can be matched. -/
theorem identity_ne_empty (h : structure_.FindsAtTop name category element) (named : name ≠ "") :
    element.identity category ≠ "" := by
  rw [identity_eq_name h.ne_importDecl, h.name_eq]
  exact named

/-- Where names tell elements apart, the element that is found is the only one of the name. -/
theorem filter_name (h : structure_.FindsAtTop name category element)
    (apart : structure_.NamesApart) :
    (structure_.elements category).filter (fun other => other.name = name) = [element] := by
  have distinct : ((structure_.elements category).map Element.name).Nodup := by
    cases category with
    | function => exact apart.functions
    | classDef => exact apart.classes
    | importDecl => exact absurd rfl h.ne_importDecl
  have members : ((structure_.elements category).filter fun other => other.name = name).Perm
      [element] := by
    have nodup := (List.Nodup.of_map Element.name distinct).filter fun other => other.name = name
    rw [List.perm_ext_iff_of_nodup nodup (List.nodup_singleton element)]
    intro other
    rw [List.mem_filter, decide_eq_true_eq, List.mem_singleton]
    constructor
    · rintro ⟨ho, same⟩
      exact List.inj_on_of_nodup_map distinct ho h.2 (same.trans h.name_eq.symm)
    · rintro rfl
      exact ⟨h.2, h.name_eq⟩
  exact List.perm_singleton.1 members

end FindsAtTop

/-- A name that finds nothing is the name of no function and of no class. -/
theorem filter_name_of_find?_eq_none {structure_ : Structure} {name : String}
    {category : Category} (h : structure_.find? name = none) (noImport : category ≠ .importDecl) :
    (structure_.elements category).filter (fun other => other.name = name) = [] := by
  rw [List.filter_eq_nil_iff]
  intro other ho
  rw [decide_eq_true_eq]
  exact name_ne_of_find?_eq_none h category noImport other ho

end Structure

/-! ## Records of one name -/

section Category

variable {category : Category} {old new : Element}

/-- When files do not count, the records of a name are those of the elements of that name. -/
theorem filter_name_diffCategory (noImport : category ≠ .importDecl) (left right : List Element)
    (name : String) :
    (diffCategory false category left right).filter (fun record => record.element.name = name) =
      diffCategory false category (left.filter fun element => element.name = name)
        (right.filter fun element => element.name = name) := by
  have identity : ∀ element : Element, (element.key false category).identity = element.name :=
    identity_eq_name noImport
  have restricted := filter_diffCategory false category left right
    fun key => decide (key.identity = name)
  simp only [identity] at restricted
  exact restricted

/-- Of two single elements with one key the new one is modified when some field differs. -/
theorem diffCategory_singletons {byFile : Bool} (named : old.identity category ≠ "")
    (same : new.key byFile category = old.key byFile category) :
    diffCategory byFile category [old] [new] =
      if (old.compare category new).isEmpty then []
      else [.modified new (old.compare category new)] := by
  have named' : new.identity category ≠ "" := by
    rw [show new.identity category = old.identity category from congrArg Key.identity same]
    exact named
  have matched : unmatchedBy (Element.key byFile category) [old] [new] = [] ∧
      unmatchedBy (Element.key byFile category) [new] [old] = [] := by
    simp [unmatchedBy, same]
  rw [diffCategory_eq, current_singleton byFile named, current_singleton byFile named']
  unfold recordsBy modifiedBy?
  rw [matched.1, matched.2]
  simp only [List.map_nil, List.nil_append, List.filterMap_cons, List.filterMap_nil,
    List.find?_singleton, same, decide_true, if_true, Option.bind_some]
  split_ifs <;> rfl

end Category

section Records

variable {left right : Structure} {name : String} {category : Category} {old new : Element}

/-- The records of a name in the comparison of two structures that do not both tell files. -/
theorem filter_name_detail (mixed : ¬(left.HasFileTag ∧ right.HasFileTag))
    (noImport : category ≠ .importDecl) :
    ((left.diff right).detail.get category).filter (fun record => record.element.name = name) =
      diffCategory false category
        ((left.elements category).filter fun element => element.name = name)
        ((right.elements category).filter fun element => element.name = name) := by
  rw [get_detail_diff, fileScoped_eq_false mixed, filter_name_diffCategory noImport]

/-- A name that both sides find in one category has the records of its own comparison. -/
theorem records_of_found (mixed : ¬(left.HasFileTag ∧ right.HasFileTag)) (named : name ≠ "")
    (lefts : left.NamesApart) (rights : right.NamesApart)
    (here : left.FindsAtTop name category old) (there : right.FindsAtTop name category new) :
    ((left.diff right).detail.get category).filter (fun record => record.element.name = name) =
      (left.diffElement right name).records := by
  have noImport := here.ne_importDecl
  have wider : category.wider category = category := by
    cases category with
    | importDecl => exact absurd rfl noImport
    | _ => rfl
  have same : new.key false category = old.key false category :=
    (key_false_eq_iff noImport).2 (there.name_eq.trans here.name_eq.symm)
  rw [filter_name_detail mixed noImport, here.filter_name lefts, there.filter_name rights,
    diffCategory_singletons (here.identity_ne_empty named) same]
  unfold Structure.diffElement
  rw [here.1, there.1]
  simp only [wider]
  split_ifs <;> rfl

/-- A name that only the new side finds has the records of its own comparison. -/
theorem records_of_found_right (mixed : ¬(left.HasFileTag ∧ right.HasFileTag)) (named : name ≠ "")
    (rights : right.NamesApart) (missing : left.find? name = none)
    (there : right.FindsAtTop name category new) :
    ((left.diff right).detail.get category).filter (fun record => record.element.name = name) =
      (left.diffElement right name).records := by
  have noImport := there.ne_importDecl
  rw [filter_name_detail mixed noImport,
    Structure.filter_name_of_find?_eq_none missing noImport, there.filter_name rights,
    diffCategory_nil_left, current_singleton false (there.identity_ne_empty named)]
  unfold Structure.diffElement
  rw [missing, there.1]
  rfl

/-- A name that only the old side finds has the records of its own comparison. -/
theorem records_of_found_left (mixed : ¬(left.HasFileTag ∧ right.HasFileTag)) (named : name ≠ "")
    (lefts : left.NamesApart) (here : left.FindsAtTop name category old)
    (missing : right.find? name = none) :
    ((left.diff right).detail.get category).filter (fun record => record.element.name = name) =
      (left.diffElement right name).records := by
  have noImport := here.ne_importDecl
  rw [filter_name_detail mixed noImport, here.filter_name lefts,
    Structure.filter_name_of_find?_eq_none missing noImport, diffCategory_nil_right,
    current_singleton false (here.identity_ne_empty named)]
  unfold Structure.diffElement
  rw [here.1, missing]
  rfl

end Records

/-! ## The verdicts -/

section Verdicts

variable {left right : Structure} {name : String} {records : List Record}

/-- A record of the name belongs to the name's own comparison. -/
theorem mem_records_iff
    (same : records.filter (fun record => record.element.name = name) =
      (left.diffElement right name).records) {record : Record} :
    record ∈ (left.diffElement right name).records ↔
      record ∈ records ∧ record.element.name = name := by
  rw [← same, List.mem_filter, decide_eq_true_eq]

/-- A name that was found is unchanged when no record has it. -/
theorem unchanged_iff
    (same : records.filter (fun record => record.element.name = name) =
      (left.diffElement right name).records)
    (found : left.diffElement right name ≠ .notFound name) :
    (∃ element, left.diffElement right name = .unchanged name element) ↔
      ∀ record ∈ records, record.element.name ≠ name := by
  have outcome := ElementDiff.records_eq_nil (left.diffElement right name)
  rw [Structure.name_diffElement, or_iff_right found, ← same, List.filter_eq_nil_iff] at outcome
  rw [← outcome]
  simp only [decide_eq_true_eq, ne_eq]

end Verdicts

/-- A name's own comparison and the comparison of the structures give one verdict on it, with the
same element and the same changes: when the name finds functions or classes on both sides, it is
modified or unchanged in both; when only one side has it, it is added or removed in both. -/
theorem diffElement_iff_mem_detail {left right : Structure} {name : String}
    (mixed : ¬(left.HasFileTag ∧ right.HasFileTag)) (lefts : left.NamesApart)
    (rights : right.NamesApart) (named : name ≠ "") :
    (∀ category old new, left.FindsAtTop name category old → right.FindsAtTop name category new →
      (∀ element changes,
        (∃ before, left.diffElement right name = .modified name before element changes) ↔
          .modified element changes ∈ (left.diff right).detail.get category ∧
            element.name = name) ∧
      ((∃ element, left.diffElement right name = .unchanged name element) ↔
        ∀ record ∈ (left.diff right).detail.get category, record.element.name ≠ name)) ∧
    (∀ category new, left.find? name = none → right.FindsAtTop name category new →
      ∀ element, left.diffElement right name = .added name element ↔
        .added element ∈ (left.diff right).detail.get category ∧ element.name = name) ∧
    (∀ category old, left.FindsAtTop name category old → right.find? name = none →
      ∀ element, left.diffElement right name = .removed name element ↔
        .removed element ∈ (left.diff right).detail.get category ∧ element.name = name) := by
  refine ⟨fun category old new here there => ⟨fun element changes => ?_, ?_⟩,
    fun category new missing there element => ?_, fun category old here missing element => ?_⟩
  · have same := records_of_found mixed named lefts rights here there
    have outcome := ElementDiff.modified_mem_records (left.diffElement right name) element changes
    rw [Structure.name_diffElement, mem_records_iff same] at outcome
    exact outcome.symm
  · have same := records_of_found mixed named lefts rights here there
    refine unchanged_iff same ?_
    unfold Structure.diffElement
    rw [here.1, there.1]
    simp only
    split_ifs <;> exact ElementDiff.noConfusion
  · have same := records_of_found_right mixed named rights missing there
    have outcome := ElementDiff.added_mem_records (left.diffElement right name) element
    rw [Structure.name_diffElement, mem_records_iff same] at outcome
    exact outcome.symm
  · have same := records_of_found_left mixed named lefts here missing
    have outcome := ElementDiff.removed_mem_records (left.diffElement right name) element
    rw [Structure.name_diffElement, mem_records_iff same] at outcome
    exact outcome.symm

/-- A program with a function `run` of two branches and a class. -/
def Structure.sampleFormer : Structure :=
  { blank with
    functions := [{ Element.named "run" with complexity := some 2 }, .named "stay"]
    classes := [.named "Gone"] }

/-- The program later: `run` has three branches and stands behind `stay`, and the class has made way
for another. -/
def Structure.sampleLatter : Structure :=
  { blank with
    functions := [.named "stay", { Element.named "run" with complexity := some 3 }]
    classes := [.named "New"] }

/-- The comparison of the two programs has the records of what became of each name. -/
theorem diffElement_iff_mem_detail_sample :
    ¬(Structure.sampleFormer.HasFileTag ∧ Structure.sampleLatter.HasFileTag) ∧
    Structure.sampleFormer.NamesApart ∧ Structure.sampleLatter.NamesApart ∧
    .modified { Element.named "run" with complexity := some 3 }
        (FieldChanges.empty.insert "complexity" (.ofNumbers (some 2) (some 3))) ∈
      (Structure.sampleFormer.diff Structure.sampleLatter).detail.get .function ∧
    (∀ record ∈ (Structure.sampleFormer.diff Structure.sampleLatter).detail.get .function,
      record.element.name ≠ "stay") ∧
    .added (.named "New") ∈
      (Structure.sampleFormer.diff Structure.sampleLatter).detail.get .classDef ∧
    .removed (.named "Gone") ∈
      (Structure.sampleFormer.diff Structure.sampleLatter).detail.get .classDef := by
  have mixed : ¬(Structure.sampleFormer.HasFileTag ∧ Structure.sampleLatter.HasFileTag) := by decide
  have lefts : Structure.sampleFormer.NamesApart := by decide
  have rights : Structure.sampleLatter.NamesApart := by decide
  obtain ⟨run, -⟩ := diffElement_iff_mem_detail mixed lefts rights (show "run" ≠ "" by decide)
  obtain ⟨stay, -⟩ := diffElement_iff_mem_detail mixed lefts rights (show "stay" ≠ "" by decide)
  obtain ⟨-, new, -⟩ := diffElement_iff_mem_detail mixed lefts rights (show "New" ≠ "" by decide)
  obtain ⟨-, -, gone⟩ := diffElement_iff_mem_detail mixed lefts rights (show "Gone" ≠ "" by decide)
  refine ⟨mixed, lefts, rights, ?_, ?_, ?_, ?_⟩
  · have verdict := (run .function { Element.named "run" with complexity := some 2 }
      { Element.named "run" with complexity := some 3 } (by decide) (by decide)).1
    exact ((verdict _ _).1 ⟨{ Element.named "run" with complexity := some 2 }, by decide⟩).1
  · exact (stay .function (.named "stay") (.named "stay") (by decide) (by decide)).2.1
      ⟨.named "stay", by decide⟩
  · exact ((new .classDef (.named "New") (by decide) (by decide) _).1 (by decide)).1
  · exact ((gone .classDef (.named "Gone") (by decide) (by decide) _).1 (by decide)).1

end CodeDelta
