import CodeDelta.Proofs.Diff.Lookup
import CodeDelta.Proofs.Diff.Records
import CodeDelta.Proofs.Document.Reports

/-!
# Comparisons written and read back

Whatever a comparison of two structures tells can be written as a document and read back
(`Structure.decodeText_comparison`). Not every report could: one that counts a modified import would
lose that count, and a change whose values hold objects would have their members sorted. A
comparison gives none of these. The values of a change are absent, numbers, texts or lists of texts
(`Element.fits_compare`), its records carry elements of the two sides (`fits_detail_diff`), and it
modifies no import (`modified_imports_diff`).
-/

namespace CodeDelta

open Json

/-! ## What a change tells -/

namespace FieldChange

/-- A number that fits, or none, as the value of a change. -/
theorem isWhole_numberValue {value : Option ℕ} (fits : ∀ n ∈ value, n < Nat.pow 2 32) :
    IsWhole (numberValue value) := by
  cases value with
  | none => exact .null
  | some n => exact isWhole_ofNat (Nat.lt_trans (fits n rfl) (by decide))

/-- A number or none is a flat value. -/
theorem isFlat_numberValue (value : Option ℕ) : IsFlat (numberValue value) := by
  cases value with
  | none => exact .null
  | some n => exact .number _

/-- A text or none is a whole value. -/
theorem isWhole_textValue (value : Option String) : IsWhole (textValue value) := by
  cases value with
  | none => exact .null
  | some text => exact .string text

/-- A text or none is a flat value. -/
theorem isFlat_textValue (value : Option String) : IsFlat (textValue value) := by
  cases value with
  | none => exact .null
  | some text => exact .string text

/-- A list of texts is a whole value. -/
theorem isWhole_ofStrings (texts : List String) : IsWhole (ofStrings texts) :=
  .array (List.forall_mem_map.2 fun text _ => .string text)

/-- The change of a number of 32 bits, whose difference then fits 64 bits with its sign. -/
theorem fits_ofNumbers {old new : Option ℕ} (fitsOld : ∀ n ∈ old, n < Nat.pow 2 32)
    (fitsNew : ∀ n ∈ new, n < Nat.pow 2 32) : (ofNumbers old new).Fits where
  wholeOld := isWhole_numberValue fitsOld
  flatOld := isFlat_numberValue old
  wholeNew := isWhole_numberValue fitsNew
  flatNew := isFlat_numberValue new
  delta n hn := by
    have small : Nat.pow 2 32 = 4294967296 := rfl
    have great : Int.pow 2 63 = 9223372036854775808 := rfl
    cases old with
    | none => exact absurd hn (Option.not_mem_none n)
    | some before =>
      cases new with
      | none => exact absurd hn (Option.not_mem_none n)
      | some after =>
        obtain rfl : (after : ℤ) - (before : ℤ) = n := Option.some.inj hn
        have below := fitsOld before rfl
        have above := fitsNew after rfl
        omega

/-- A change without a difference fits when its values do. -/
theorem fits_ofValues {old new : Json} (wholeOld : IsWhole old) (flatOld : IsFlat old)
    (wholeNew : IsWhole new) (flatNew : IsFlat new) : (ofValues old new).Fits where
  wholeOld := wholeOld
  flatOld := flatOld
  wholeNew := wholeNew
  flatNew := flatNew
  delta n hn := absurd hn (Option.not_mem_none n)

end FieldChange

namespace FieldChanges

variable {changes : FieldChanges}

/-- A field whose change fits may be set. -/
theorem Fits.insert (fits : changes.Fits) (name : String) {change : FieldChange}
    (h : change.Fits) : (changes.insert name change).Fits := by
  intro entry he
  rcases mem_insertMember he with rfl | he
  · exact h
  · exact fits entry he

/-- A field whose change fits may be noted. -/
theorem Fits.note {α : Type} [DecidableEq α] (fits : changes.Fits) (name : String)
    {describe : α → α → FieldChange} {old new : α} (h : (describe old new).Fits) :
    (changes.note name describe old new).Fits := by
  unfold FieldChanges.note
  split
  · exact fits
  · exact fits.insert name h

/-- Nothing changed. -/
theorem fits_empty : FieldChanges.empty.Fits := List.forall_mem_nil _

end FieldChanges

namespace Element

/-- The changes of the fields common to functions and classes. -/
theorem fits_commonChanges {old new : Element} (fitsOld : old.Fits) (fitsNew : new.Fits) :
    (commonChanges old new).Fits := by
  obtain ⟨line, lineCount, complexity, -⟩ := fitsOld
  obtain ⟨line', lineCount', complexity', -⟩ := fitsNew
  have signature : (textChange old.signature new.signature).Fits :=
    FieldChange.fits_ofValues (FieldChange.isWhole_textValue _) (FieldChange.isFlat_textValue _)
      (FieldChange.isWhole_textValue _) (FieldChange.isFlat_textValue _)
  exact (((FieldChanges.fits_empty.note _ signature).note _
    (FieldChange.fits_ofNumbers complexity complexity')).note _
    (FieldChange.fits_ofNumbers lineCount lineCount')).note _
    (FieldChange.fits_ofNumbers line line')

/-- The change of the methods, of which there are not too many to count. -/
theorem fits_methodsChange {old new : Element} (fewOld : old.FewMethods)
    (fewNew : new.FewMethods) : (methodsChange old new).Fits := by
  obtain ⟨countOld, -⟩ := fewOld
  obtain ⟨countNew, -⟩ := fewNew
  have counts : (FieldChange.ofNumbers (some old.methods.length) (some new.methods.length)).Fits :=
    FieldChange.fits_ofNumbers (fun n hn => Option.some.inj hn ▸ countOld)
      (fun n hn => Option.some.inj hn ▸ countNew)
  exact ⟨counts.wholeOld, counts.flatOld, counts.wholeNew, counts.flatNew, counts.delta⟩

/-- The changed fields of two elements that fit are written and read back. -/
theorem fits_compare (category : Category) {old new : Element} (fitsOld : old.Fits)
    (fitsNew : new.Fits) (fewOld : old.FewMethods) (fewNew : new.FewMethods) :
    (old.compare category new).Fits := by
  cases category with
  | function => exact fits_commonChanges fitsOld fitsNew
  | importDecl => exact FieldChanges.fits_empty
  | classDef =>
    have bases : (listChange old.bases new.bases).Fits :=
      FieldChange.fits_ofValues (FieldChange.isWhole_ofStrings _) (isFlat_ofStrings _)
        (FieldChange.isWhole_ofStrings _) (isFlat_ofStrings _)
    have common := (fits_commonChanges fitsOld fitsNew).note "bases" bases
    show (classChanges old new).Fits
    unfold classChanges
    split
    · exact common
    · exact common.insert _ (fits_methodsChange fewOld fewNew)

end Element

/-! ## What a comparison tells -/

/-- A structure with fewer than `2 ^ 64` elements in each category, none of which has too many
methods to count. -/
structure Structure.Countable (structure_ : Structure) : Prop where
  /-- The numbers of elements. -/
  lengths : ∀ category, (structure_.elements category).length < Nat.pow 2 64
  /-- The numbers of methods. -/
  methods : ∀ category, ∀ element ∈ structure_.elements category, element.FewMethods

/-- No import is counted as modified. -/
theorem modified_imports_diff (left right : Structure) :
    (left.diff right).summary.imports.modified = 0 := by
  have count := get_summary_diff left right .importDecl .modified
  rw [get_detail_diff, ofKind_modified_importDecl] at count
  exact count

section Comparison

variable {left right : Structure}

/-- The counts are no greater than the numbers of elements. -/
theorem fits_summary_diff (countLeft : left.Countable) (countRight : right.Countable) :
    (left.diff right).summary.Fits := by
  intro category kind
  have olds := countLeft.lengths category
  have news := countRight.lengths category
  have most := @length_ofKind_diffCategory_le (fileScoped left right) category
    (left.elements category) (right.elements category) kind
  rw [get_summary_diff, get_detail_diff]
  exact Nat.lt_of_le_of_lt most (Nat.max_lt.2 ⟨olds, news⟩)

/-- The records tell of elements of the two sides and of the changes between them. -/
theorem fits_detail_diff (fitsLeft : left.Fits) (fitsRight : right.Fits)
    (countLeft : left.Countable) (countRight : right.Countable) :
    (left.diff right).detail.Fits := by
  intro category record hr
  rw [get_detail_diff] at hr
  refine ⟨?_, ?_⟩
  · rcases mem_of_mem_diffCategory hr with he | he
    · exact fitsLeft.elements category _ he
    · exact fitsRight.elements category _ he
  · rcases changes_of_mem_diffCategory hr with none_changed | ⟨old, ho, new, hn, compared⟩
    · rw [none_changed]
      exact FieldChanges.fits_empty
    · rw [compared]
      exact Element.fits_compare category (fitsLeft.elements category old ho)
        (fitsRight.elements category new hn) (countLeft.methods category old ho)
        (countRight.methods category new hn)

/-- The report of a comparison is written and read back. -/
theorem fits_report (fitsLeft : left.Fits) (fitsRight : right.Fits)
    (countLeft : left.Countable) (countRight : right.Countable) (here there : String) :
    (Report.of (.of here left) (.of there right) (left.diff right)).Fits where
  left := ⟨fitsLeft.fileCount, fitsLeft.skippedFiles⟩
  right := ⟨fitsRight.fileCount, fitsRight.skippedFiles⟩
  summary := fits_summary_diff countLeft countRight
  unmodified := modified_imports_diff left right
  detail := fits_detail_diff fitsLeft fitsRight countLeft countRight

/-- An element that a look-up finds fits, and has not too many methods to count. -/
theorem Structure.Found.fits {structure_ : Structure} {name : String} {category : Category}
    {element : Element} (found : structure_.Found name category element)
    (fits : structure_.Fits) (count : structure_.Countable) :
    element.Fits ∧ element.FewMethods := by
  constructor
  · refine found.forall fits.elements fun owner holds => ?_
    obtain ⟨-, -, -, methods⟩ := holds
    exact methods
  · refine found.forall count.methods fun owner holds => ?_
    obtain ⟨-, methods⟩ := holds
    exact methods

/-- The comparison of one element is written and read back. -/
theorem fits_diffElement (fitsLeft : left.Fits) (fitsRight : right.Fits)
    (countLeft : left.Countable) (countRight : right.Countable) (name : String) :
    (left.diffElement right name).Fits := by
  unfold Structure.diffElement
  split
  · exact .notFound name
  · next newFound =>
    exact .added name ((Structure.found_of_find? newFound).fits fitsRight countRight).1
  · next oldFound _ =>
    exact .removed name ((Structure.found_of_find? oldFound).fits fitsLeft countLeft).1
  · next oldFound newFound =>
    obtain ⟨fitsOld, fewOld⟩ := (Structure.found_of_find? oldFound).fits fitsLeft countLeft
    obtain ⟨fitsNew, fewNew⟩ := (Structure.found_of_find? newFound).fits fitsRight countRight
    dsimp only
    split
    · exact .unchanged name fitsNew
    · exact .modified name fitsOld fitsNew (Element.fits_compare _ fitsOld fitsNew fewOld fewNew)

end Comparison

/-- What a comparison tells is written and read back, in either layout and with blanks behind it or
without: the report with all its records, and what became of one name. Nothing is lost with the
count that is not written, and no element has a member by the names that a record writes of its
own. -/
theorem Structure.decodeText_comparison {left right : Structure} (fitsLeft : left.Fits)
    (fitsRight : right.Fits) (countLeft : left.Countable) (countRight : right.Countable)
    (layout : Layout) {blanks : List Char} (h : AreBlanks blanks) :
    (∀ here there report, report = Report.of (.of here left) (.of there right) (left.diff right) →
      (Draft.ofValue report.toJson).depth ≤ maxDepth →
      decodeText (Report.decode .text) (report.toJson.write layout ++ String.ofList blanks) =
        .ok report) ∧
    (∀ name diff, diff = left.diffElement right name →
      (Draft.ofValue diff.toJson).depth ≤ maxDepth →
      decodeText ElementDiff.decode (diff.toJson.write layout ++ String.ofList blanks) =
        .ok diff) ∧
    (left.diff right).summary.imports.modified = 0 ∧
    ∀ category, ∀ record ∈ (left.diff right).detail.get category,
      ∀ member ∈ record.element.members, member.1 ≠ "change" ∧ member.1 ≠ "changes" := by
  refine ⟨?_, ?_, modified_imports_diff left right, fun _ _ _ _ => Record.name_ne_of_mem_members⟩
  · rintro here there report rfl levels
    have fits := fits_report fitsLeft fitsRight countLeft countRight here there
    rw [decodeText_write _ layout (Report.isWhole_toJson fits) h]
    exact Report.decode_toJson .text fits levels
  · rintro name diff rfl levels
    have fits := fits_diffElement fitsLeft fitsRight countLeft countRight name
    rw [decodeText_write _ layout (ElementDiff.isWhole_toJson fits) h]
    exact ElementDiff.decode_toJson fits levels

/-- A structure before a change. -/
def Structure.sampleBefore : Structure where
  kind := .other
  path := none
  language := none
  fileCount := none
  skippedFiles := 3
  functions := [{ Element.named "run" with signature := some "run()", complexity := some 9 }]
  classes :=
    [{ Element.named "größe\n" with
        line := some 4294967295
        bases := ["Base"]
        methods := [{ Element.named "a" with methods := [Element.named "b"] }] }]
  imports := [.ofImport "import os" 1]

/-- The structure after it: a signature is gone, a complexity is less, a class has other bases and
methods and stands elsewhere, and one import took the place of another. -/
def Structure.sampleAfter : Structure where
  kind := .file
  path := none
  language := none
  fileCount := some 18446744073709551615
  skippedFiles := 0
  functions := [{ Element.named "run" with complexity := some 2 }]
  classes :=
    [{ Element.named "größe\n" with
        line := some 4
        methods := [Element.named "b", Element.named "\"", Element.named "b"] }]
  imports := [.ofImport "import sys" 1]

/-- The numbers of the structure before fit their words. -/
theorem Structure.fits_sampleBefore : sampleBefore.Fits where
  fileCount := by decide
  skippedFiles := by decide
  elements category := by
    have named : ∀ name, (Element.named name).Fits :=
      fun name => ⟨nofun, nofun, nofun, List.forall_mem_nil _⟩
    cases category with
    | function =>
      exact List.forall_mem_singleton.2 ⟨by decide, by decide, by decide, List.forall_mem_nil _⟩
    | classDef =>
      exact List.forall_mem_singleton.2 ⟨by decide, by decide, by decide,
        List.forall_mem_singleton.2 ⟨by decide, by decide, by decide,
          List.forall_mem_singleton.2 (named "b")⟩⟩
    | importDecl =>
      exact List.forall_mem_singleton.2 ⟨by decide, by decide, by decide, List.forall_mem_nil _⟩

/-- The numbers of the structure after it fit their words. -/
theorem Structure.fits_sampleAfter : sampleAfter.Fits where
  fileCount := by decide
  skippedFiles := by decide
  elements category := by
    have named : ∀ name, (Element.named name).Fits :=
      fun name => ⟨nofun, nofun, nofun, List.forall_mem_nil _⟩
    cases category with
    | function =>
      exact List.forall_mem_singleton.2 ⟨by decide, by decide, by decide, List.forall_mem_nil _⟩
    | classDef =>
      refine List.forall_mem_singleton.2 ⟨by decide, by decide, by decide, ?_⟩
      exact List.forall_mem_cons.2 ⟨named _, List.forall_mem_cons.2 ⟨named _,
        List.forall_mem_singleton.2 (named _)⟩⟩
    | importDecl =>
      exact List.forall_mem_singleton.2 ⟨by decide, by decide, by decide, List.forall_mem_nil _⟩

/-- The elements and methods of both can be counted. -/
theorem Structure.countable_samples : sampleBefore.Countable ∧ sampleAfter.Countable := by
  have bare : ∀ {element : Element}, element.methods = [] → element.FewMethods := by
    intro element none_there
    refine ⟨?_, ?_⟩
    · rw [none_there]
      decide
    · rw [none_there]
      exact List.forall_mem_nil _
  refine ⟨⟨fun category => by cases category <;> decide, fun category => ?_⟩,
    ⟨fun category => by cases category <;> decide, fun category => ?_⟩⟩
  · cases category with
    | function => exact List.forall_mem_singleton.2 (bare rfl)
    | classDef =>
      exact List.forall_mem_singleton.2 ⟨by decide, List.forall_mem_singleton.2 ⟨by decide,
        List.forall_mem_singleton.2 (bare rfl)⟩⟩
    | importDecl => exact List.forall_mem_singleton.2 (bare rfl)
  · cases category with
    | function => exact List.forall_mem_singleton.2 (bare rfl)
    | classDef =>
      refine List.forall_mem_singleton.2 ⟨by decide, ?_⟩
      exact List.forall_mem_cons.2 ⟨bare rfl, List.forall_mem_cons.2 ⟨bare rfl,
        List.forall_mem_singleton.2 (bare rfl)⟩⟩
    | importDecl => exact List.forall_mem_singleton.2 (bare rfl)

/-- The report of the change is read back from its text on many lines, with a line break behind it,
and what became of the class from its text on one line. -/
theorem Structure.decodeText_comparison_sample :
    (∃ report, report = Report.of (.of "a:b\t" sampleBefore) (.of "" sampleAfter)
        (sampleBefore.diff sampleAfter) ∧
      (report.detail.get .classDef).map (fun record => record.changes.names) =
        [["bases", "line", "methods"]] ∧
      decodeText (Report.decode .text) (report.toJson.write .pretty ++ String.ofList ['\n']) =
        .ok report) ∧
    ∃ diff, diff = sampleBefore.diffElement sampleAfter "größe\n" ∧ diff.word = "modified" ∧
      decodeText ElementDiff.decode (diff.toJson.write .compact ++ String.ofList []) =
        .ok diff := by
  have fitsBefore := fits_sampleBefore
  have fitsAfter := fits_sampleAfter
  obtain ⟨countBefore, countAfter⟩ := countable_samples
  have blanks : AreBlanks ['\n'] := List.forall_mem_singleton.2 rfl
  obtain ⟨report, -⟩ := decodeText_comparison fitsBefore fitsAfter countBefore countAfter .pretty
    blanks
  obtain ⟨-, diff, -⟩ := decodeText_comparison fitsBefore fitsAfter countBefore countAfter .compact
    (List.forall_mem_nil _)
  refine ⟨⟨_, rfl, by decide, report "a:b\t" "" _ rfl (by decide)⟩, _, rfl, by decide, ?_⟩
  exact diff "größe\n" _ rfl (by decide)

end CodeDelta
