import CodeDelta.Render.Grid
import CodeDelta.Render.Phrase
import CodeDelta.Document.Encode

/-!
# Showing a comparison

The table of a report has a heading, a section for each kind of change that occurs, and the grid of
the counts; a report without changes says so instead. In the format of lines every record is one
line, category by category.
-/

namespace CodeDelta

namespace Render

/-- The records of one kind, each with its category. -/
structure Section where
  /-- The kind. -/
  kind : ChangeKind
  /-- The records in the order of the report. -/
  records : List (Category × Record)
deriving DecidableEq, Repr

namespace Section

/-- The heading's word. -/
def title (part : Section) : String :=
  match part.kind with
  | .added => "ADDED"
  | .modified => "MODIFIED"
  | .removed => "REMOVED"

/-- The colour that a kind is told by. -/
def accent (part : Section) : Attribute :=
  match part.kind with
  | .added => .green
  | .modified => .yellow
  | .removed => .red

/-- The line of a record and those of its changed fields. -/
def recordLines (color : Bool) (part : Section) (category : Category) (record : Record) :
    List String :=
  let name := paint color [part.accent] (record.element.identity category)
  let place := (locationOf record.element none).elim "" fun place =>
    " " ++ paint color [.dimmed] place
  (s!"  {part.kind.sigil} {name} [{category.word}]" ++ place) ::
    changesLines color record.changes

/-- The heading, the records and an empty line. -/
def lines (color : Bool) (part : Section) : List String :=
  let title := paint color [.bold, part.accent] part.title
  [s!"{title} ({part.records.length}):"] ++
    part.records.flatMap (fun entry => part.recordLines color entry.1 entry.2) ++ [""]

end Section

/-- How many files a side stands for, when it tells. -/
def countText (side : Side) : String :=
  match side.fileCount with
  | some 1 => " (1 file)"
  | some n => s!" ({n} files)"
  | none => ""

/-- The line on the files that a side left out. -/
def noteLines (color : Bool) (side : Side) : List String :=
  side.skippedNote.toList.map fun note =>
    paint color [.yellow] "note:" ++ " " ++ paint color [.dimmed] s!"{note} ({side.uri})"

/-- The file that elements of a side belong to when they name none; a directory's always name
theirs. -/
def sideFile (side : Side) : Option String :=
  if side.kind = .directory then none else some side.uri

end Render

open Render

namespace Detail

/-- All records with their categories, in order. -/
def entries (detail : Detail) : List (Category × Record) :=
  Category.all.flatMap fun category => (detail.get category).map fun record => (category, record)

/-- The sections of the kinds that occur. -/
def sections (detail : Detail) : List Section :=
  [ChangeKind.added, .modified, .removed].filterMap fun kind =>
    match detail.entries.filter fun entry => entry.2.kind = kind with
    | [] => none
    | records => some ⟨kind, records⟩

end Detail

namespace Report

/-- The lines that open the table. -/
def headingLines (color : Bool) (report : Report) : List String :=
  let kinds :=
    s!"{report.left.kind.word}{countText report.left} vs " ++
      s!"{report.right.kind.word}{countText report.right}"
  [paint color [.bold, .cyan] "DIFF:" ++ " " ++ paint color [.yellow] report.left.uri ++ " -> " ++
      paint color [.green] report.right.uri, kinds] ++
    noteLines color report.left ++ noteLines color report.right ++ [""]

/-- The lines of the table. -/
def tableLines (options : Options) (report : Report) : List String :=
  report.headingLines options.color ++
    if report.summary.isEmpty then [paint options.color [.dimmed] "No changes"]
    else report.detail.sections.flatMap (fun part => part.lines options.color) ++
      summaryLines options.compact report.summary

/-- One line per record. -/
def grepLines (report : Report) : List String :=
  report.detail.entries.map fun entry =>
    let side := if entry.2.kind = .removed then report.left else report.right
    changeLine entry.2.kind.sigil entry.1 entry.2.element (sideFile side)

/-- The report in the format that is asked for. -/
def render (options : Options) (report : Report) : String :=
  match options.format with
  | .table => unlines (report.tableLines options)
  | .json => report.toJson.write options.layout
  | .grep => unlines report.grepLines

end Report

end CodeDelta
