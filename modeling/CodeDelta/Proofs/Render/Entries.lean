import CodeDelta.Proofs.Diff.Matching
import CodeDelta.Render.Report

/-!
# The records of a report

A report shows the records of all categories, one after the other, as its entries. What the counts
of a comparison add up to is their number (`total_summary_diff`), so a comparison has changes
exactly when it has entries. An entry is told in one line (`changeLine_eq_lineText`), or in a
section of a table, with the changes of its fields below it (`unlines_recordLines`).
-/

namespace CodeDelta

namespace Detail

variable {detail : Detail}

/-- The entries are the records of every category. -/
theorem mem_entries {category : Category} {record : Record} :
    (category, record) ∈ detail.entries ↔ record ∈ detail.get category := by
  unfold entries
  simp only [List.mem_flatMap, List.mem_map, Prod.mk.injEq]
  constructor
  · rintro ⟨other, -, same, inside, rfl, rfl⟩
    exact inside
  · intro inside
    exact ⟨category, by cases category <;> decide, record, inside, rfl, rfl⟩

/-- The functions stand first, then the classes and then the imports. -/
theorem entries_eq (detail : Detail) :
    detail.entries = detail.functions.map (Prod.mk .function) ++
      detail.classes.map (Prod.mk .classDef) ++ detail.imports.map (Prod.mk .importDecl) := by
  unfold entries Category.all
  rw [List.flatMap_cons, List.flatMap_cons, List.flatMap_singleton, List.append_assoc]
  rfl

/-- There are as many entries as records. -/
theorem length_entries (detail : Detail) :
    detail.entries.length =
      detail.functions.length + detail.classes.length + detail.imports.length := by
  rw [entries_eq, List.length_append, List.length_append, List.length_map, List.length_map,
    List.length_map]

/-- Nothing changed exactly when there is no entry. -/
theorem isEmpty_iff : detail.isEmpty = true ↔ detail.entries = [] := by
  rw [← List.length_eq_zero_iff, length_entries]
  unfold isEmpty Category.all
  simp only [List.all_cons, List.all_nil, Bool.and_true, Bool.and_eq_true, List.isEmpty_iff, get,
    ← List.length_eq_zero_iff]
  omega

end Detail

/-- The counts of a list of records add up to its length. -/
theorem Counts.total_ofRecords (records : List Record) :
    (ofRecords records).total = records.length := by
  have from_counts : ∀ counts : Counts,
      (records.foldl (fun counts record => counts.count record.kind) counts).total =
        counts.total + records.length := by
    induction records with
    | nil => exact fun counts => rfl
    | cons record rest ih =>
      intro counts
      have one_more : (counts.count record.kind).total = counts.total + 1 := by
        cases record.kind <;> simp only [count, total] <;> omega
      rw [List.foldl_cons, ih, one_more, List.length_cons]
      omega
  have start := from_counts .zero
  rwa [show Counts.zero.total = 0 from rfl, Nat.zero_add] at start

variable (left right : Structure)

/-- The summary of a comparison counts every entry once. -/
theorem total_summary_diff :
    (left.diff right).summary.total = (left.diff right).detail.entries.length := by
  rw [Detail.length_entries]
  show (Counts.ofRecords _).total + (Counts.ofRecords _).total + (Counts.ofRecords _).total = _
  rw [Counts.total_ofRecords, Counts.total_ofRecords, Counts.total_ofRecords]
  rfl

/-- Nothing changed exactly when the summary counts nothing. -/
theorem hasChanges_eq_false_iff :
    (left.diff right).hasChanges = false ↔ (left.diff right).summary.total = 0 := by
  unfold StructureDiff.hasChanges
  rw [Bool.not_eq_false', Detail.isEmpty_iff, total_summary_diff, List.length_eq_zero_iff]

/-! ## How entries are told -/

/-- The mark of a kind of change. -/
def ChangeKind.mark : ChangeKind → Char
  | .added => '+'
  | .modified => '~'
  | .removed => '-'

/-- The word over the section of a kind of change. -/
def ChangeKind.headingWord : ChangeKind → String
  | .added => "ADDED"
  | .modified => "MODIFIED"
  | .removed => "REMOVED"

/-- The mark is the one that lines start with. -/
theorem ChangeKind.sigil_eq_mark (kind : ChangeKind) : kind.sigil = kind.mark := by
  cases kind <;> rfl

/-- Two kinds of one mark are one. -/
theorem ChangeKind.mark_inj {a b : ChangeKind} : a.mark = b.mark ↔ a = b := by
  cases a <;> cases b <;> decide

namespace Render

/-- Where something stands, set off by a blank: a file with a line or without one. Without a file
nothing is told. -/
def placeText : Option String → Option ℕ → String
  | some file, some line => " " ++ file ++ ":" ++ toString line
  | some file, none => " " ++ file
  | none, _ => ""

/-- An entry in one line; `file` is where its element stands when it names no file. -/
def lineText (entry : Category × Record) (file : Option String) : String :=
  String.singleton entry.2.kind.mark ++ " " ++ entry.1.word ++ " " ++
    entry.2.element.identity entry.1 ++
    placeText (entry.2.element.file.or file) entry.2.element.line

/-- An entry in a section: a line for the element and one for each changed field, set off below
it. -/
def entryText (entry : Category × Record) : String :=
  "  " ++ String.singleton entry.2.kind.mark ++ " " ++ entry.2.element.identity entry.1 ++ " [" ++
    entry.1.word ++ "]" ++ placeText entry.2.element.file entry.2.element.line ++ "\n" ++
    String.join (entry.2.changes.entries.map fun change =>
      "      " ++ changeText false change.1 change.2 ++ "\n")

/-- A place is told behind a blank. -/
theorem placeText_eq (file : Option String) (line : Option ℕ) :
    placeText file line = (location file line).elim "" fun place => " " ++ place := by
  cases file with
  | none => rfl
  | some file =>
    cases line with
    | none => rfl
    | some line =>
      show " " ++ file ++ ":" ++ toString line = " " ++ (file ++ ":" ++ toString line)
      simp only [String.append_assoc]

/-- The text of lines is that of each line with its end. -/
theorem unlines_map {α : Type} (line : α → String) (xs : List α) :
    unlines (xs.map line) = String.join (xs.map fun x => line x ++ "\n") := by
  induction xs with
  | nil => rfl
  | cons x rest ih => rw [List.map_cons, List.map_cons, unlines, ih, String.join_cons]

/-- The line of a change tells its entry. -/
theorem changeLine_eq_lineText (entry : Category × Record) (file : Option String) :
    changeLine entry.2.kind.sigil entry.1 entry.2.element file = lineText entry file := by
  unfold changeLine grepLine lineText locationOf
  rw [placeText_eq, ChangeKind.sigil_eq_mark, Char.toString]
  cases location (entry.2.element.file.or file) entry.2.element.line <;>
    simp [String.intercalate_cons_cons, String.append_assoc]

/-- The lines of a record in the section of its kind tell its entry. -/
theorem unlines_recordLines (entry : Category × Record) (records : List (Category × Record)) :
    unlines ((Section.mk entry.2.kind records).recordLines false entry.1 entry.2) =
      entryText entry := by
  have lead (mark : Char) (name word place : String) :
      s!"  {mark} {name} [{word}]" ++ place ++ "\n" =
        "  " ++ String.singleton mark ++ " " ++ name ++ " [" ++ word ++ "]" ++ place ++ "\n" := rfl
  unfold Section.recordLines entryText locationOf changesLines
  rw [unlines, unlines_map, placeText_eq, Option.or_none, ← ChangeKind.sigil_eq_mark]
  exact congrArg (· ++ _) (lead _ _ _ _)

end Render

/-! ## Reports -/

/-- The report of two structures under their addresses. -/
def Structure.report (here there : String) : Report :=
  .of (.of here left) (.of there right) (left.diff right)

end CodeDelta
