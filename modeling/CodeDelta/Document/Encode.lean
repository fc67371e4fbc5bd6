import CodeDelta.Diff.Structures
import CodeDelta.Diff.Elements

/-!
# The documents of structures and comparisons

How each type stands in a document: its members in order, and which of them are left out. A name is
left out when it is empty, an optional value when it is absent, a list of an element when it is
empty, a count of skipped files when it is zero; everything else always stands.
-/

namespace CodeDelta

/-- A member that is left out when it has no value. -/
def optionalMember (name : String) (encode : α → Json) : Option α → List (String × Json)
  | some value => [(name, encode value)]
  | none => []

/-- A member that is left out when its list is empty. -/
def listMember (name : String) : List Json → List (String × Json)
  | [] => []
  | items => [(name, .array items)]

/-- A member that is left out when its count is zero. -/
def countMember (name : String) (count : Nat) : List (String × Json) :=
  if count = 0 then [] else [(name, .ofNat count)]

namespace Element

mutual

/-- The members of an element. -/
def members : Element → List (String × Json)
  | ⟨name, line, lineCount, signature, complexity, bases, methods, file, content⟩ =>
    (if name = "" then [] else [("name", .string name)]) ++
      (optionalMember "line" .ofNat line ++
      (optionalMember "line_count" .ofNat lineCount ++
      (optionalMember "signature" .string signature ++
      (optionalMember "complexity" .ofNat complexity ++
      (listMember "bases" (bases.map .string) ++
      (listMember "methods" (encodeAll methods) ++
      (optionalMember "file" .string file ++
      optionalMember "content" .string content)))))))

/-- The documents of elements. -/
def encodeAll : List Element → List Json
  | [] => []
  | element :: rest => .object element.members :: encodeAll rest

end

/-- The document of an element. -/
def toJson (element : Element) : Json := .object element.members

end Element

/-- The document of a structure. -/
def Structure.toJson (structure_ : Structure) : Json :=
  .object ([("type", .string structure_.kind.word)] ++
    optionalMember "path" .string structure_.path ++
    optionalMember "language" .string structure_.language ++
    optionalMember "file_count" .ofNat structure_.fileCount ++
    countMember "skipped_files" structure_.skippedFiles ++
    [("functions", .array (Element.encodeAll structure_.functions)),
      ("classes", .array (Element.encodeAll structure_.classes)),
      ("imports", .array (Element.encodeAll structure_.imports))])

/-- The document of a field's change. -/
def FieldChange.toJson (change : FieldChange) : Json :=
  .object ([("old", change.old), ("new", change.new)] ++
    optionalMember "delta" .ofInt change.delta ++
    listMember "added" (change.added.map .string) ++
    listMember "removed" (change.removed.map .string))

/-- The document of all changed fields. -/
def FieldChanges.toJson (changes : FieldChanges) : Json :=
  .object (changes.entries.map fun entry => (entry.1, entry.2.toJson))

/-- The document of a record: the element's members stand among its own. -/
def Record.toJson (record : Record) : Json :=
  .object ([("change", .string record.kind.word)] ++ record.element.members ++
    (if record.changes.isEmpty then [] else [("changes", record.changes.toJson)]))

/-- The document of a category's counts. -/
def Counts.toJson (counts : Counts) : Json :=
  .object [("added", .ofNat counts.added), ("removed", .ofNat counts.removed),
    ("modified", .ofNat counts.modified)]

/-- The document of a summary; imports are never modified and have no such count. -/
def Summary.toJson (summary : Summary) : Json :=
  .object [("functions", summary.functions.toJson), ("classes", summary.classes.toJson),
    ("imports", .object [("added", .ofNat summary.imports.added),
      ("removed", .ofNat summary.imports.removed)])]

/-- The document of all records. -/
def Detail.toJson (detail : Detail) : Json :=
  .object (Category.all.map fun category =>
    (category.plural, .array ((detail.get category).map Record.toJson)))

/-- The document of a comparison. -/
def StructureDiff.toJson (diff : StructureDiff) : Json :=
  .object [("summary", diff.summary.toJson), ("diff", diff.detail.toJson)]

/-- The document of one side. -/
def Side.toJson (side : Side) : Json :=
  .object ([("uri", .string side.uri), ("type", .string side.kind.word)] ++
    optionalMember "file_count" .ofNat side.fileCount ++
    countMember "skipped_files" side.skippedFiles)

/-- The document of a report. -/
def Report.toJson (report : Report) : Json :=
  .object [("left", report.left.toJson), ("right", report.right.toJson),
    ("summary", report.summary.toJson), ("diff", report.detail.toJson)]

/-- The members of an element's comparison. -/
def ElementDiff.members (diff : ElementDiff) : List (String × Json) :=
  [("type", .string diff.word), ("name", .string diff.name)] ++
    match diff with
    | .notFound _ => []
    | .added _ element | .removed _ element | .unchanged _ element =>
      [("element", element.toJson)]
    | .modified _ old new changes =>
      [("old", old.toJson), ("new", new.toJson), ("changes", changes.toJson)]

/-- The document of an element's comparison. -/
def ElementDiff.toJson (diff : ElementDiff) : Json := .object diff.members

/-- The document of an element's comparison with its two sides. -/
def ElementReport.toJson (report : ElementReport) : Json :=
  .object ([("left", .string report.left), ("right", .string report.right)] ++
    report.diff.members)

end CodeDelta
