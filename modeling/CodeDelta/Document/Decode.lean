import CodeDelta.Diff.Structures
import CodeDelta.Diff.Elements
import CodeDelta.Json.Decode

/-!
# Reading structures and comparisons

The decoders of all types that stand in documents. Members of structures and elements may be
missing, those of comparisons must be there; a member that stands twice is refused, one that no
type knows is passed over. A record's own members stand among those of its element, and the members
of an element's comparison depend on its `type`: there the members are first read as they are and
then put in their places.
-/

namespace CodeDelta

open Json

/-- Reads a count of 64 bits. -/
def decodeCount : Decoder Nat := decodeNat 64

/-- Reads a number of 32 bits that may be absent. -/
def decodeSmall : Decoder (Option Nat) := decodeOption (decodeNat 32)

/-- Reads a text that may be absent. -/
def decodeText? : Decoder (Option String) := decodeOption decodeString

namespace Element

/-- The fields of an element, given how its methods are read. -/
def fields (methods : Decoder (List Element)) : List (RecordField Element) :=
  [.of "name" false decodeString fun element value => { element with name := value },
    .of "line" false decodeSmall fun element value => { element with line := value },
    .of "line_count" false decodeSmall fun element value => { element with lineCount := value },
    .of "signature" false decodeText? fun element value => { element with signature := value },
    .of "complexity" false decodeSmall fun element value => { element with complexity := value },
    .of "bases" false (decodeList decodeString) fun element value =>
      { element with bases := value },
    .of "methods" false methods fun element value => { element with methods := value },
    .of "file" false decodeText? fun element value => { element with file := value },
    .of "content" false decodeText? fun element value => { element with content := value }]

/-- Reads an element. Methods take two levels, one for their array and one for each method. -/
def decode (origin : Origin) : Decoder Element
  | 0 => decodeRecord origin (fields fun _ draft => .error (mismatch draft)) blank 0
  | 1 => decodeRecord origin (fields (decodeList fun _ draft => .error (mismatch draft))) blank 1
  | room + 2 =>
    let inner := decode origin room
    decodeRecord origin (fields (decodeList fun _ => inner)) blank (room + 2)

end Element

/-- Reads the kind of a structure. -/
def Structure.Kind.decode (origin : Origin) : Decoder Structure.Kind :=
  decodeName origin fun text => some (Structure.Kind.ofWord text)

/-- The fields of a structure. -/
def Structure.fields (origin : Origin) : List (RecordField Structure) :=
  let elements := decodeList (Element.decode origin)
  [.of "type" false (Kind.decode origin) fun record value => { record with kind := value },
    .of "path" false decodeText? fun record value => { record with path := value },
    .of "language" false decodeText? fun record value => { record with language := value },
    .of "file_count" false (decodeOption decodeCount) fun record value =>
      { record with fileCount := value },
    .of "skipped_files" false decodeCount fun record value =>
      { record with skippedFiles := value },
    .of "functions" false elements fun record value => { record with functions := value },
    .of "classes" false elements fun record value => { record with classes := value },
    .of "imports" false elements fun record value => { record with imports := value }]

/-- Reads a structure. -/
def Structure.decode (origin : Origin) : Decoder Structure :=
  decodeRecord origin (Structure.fields origin) .blank

/-- Reads a list of names. -/
def decodeNames : Decoder (List String) := decodeList decodeString

/-- Reads a field's change. -/
def FieldChange.decode (origin : Origin) : Decoder FieldChange :=
  decodeRecord origin
    [.of "old" true decodeJson fun record value => { record with old := value },
      .of "new" true decodeJson fun record value => { record with new := value },
      .of "delta" false (decodeOption (decodeInt (-Int.pow 2 63) (Int.pow 2 63 - 1)))
        fun record value => { record with delta := value },
      .of "added" false decodeNames fun record value => { record with added := value },
      .of "removed" false decodeNames fun record value => { record with removed := value }]
    (.ofValues .null .null)

/-- Reads all changed fields; of two changes of one name the last stays. -/
def FieldChanges.decode (origin : Origin) : Decoder FieldChanges :=
  decodeMap (FieldChange.decode origin) FieldChanges.insert .empty

/-- Reads a kind of change. -/
def ChangeKind.decode (origin : Origin) : Decoder ChangeKind :=
  decodeName origin ChangeKind.ofWord?

/-- The members of a record that are its own, and the others as they are written. -/
structure Record.Parts where
  /-- What happened. -/
  kind : Option ChangeKind
  /-- The changed fields. -/
  changes : Option FieldChanges
  /-- The members of the element, last first. -/
  others : List (String × Json)

/-- Sorts the members of a record. -/
def Record.sortMembers (origin : Origin) (room : Nat) (fault : Option Fault)
    (parts : Record.Parts) : List (Literal × Draft) → Except Fault Record.Parts
  | [] =>
    match fault with
    | none => .ok parts
    | some fault => .error fault
  | (name, value) :: rest => do
    let key ← name.content
    let parts ←
      if key = "change" then
        if parts.kind.isSome then throw Fault.data
        else do
          let kind ← ChangeKind.decode origin room value
          pure { parts with kind := some kind }
      else if key = "changes" then
        if parts.changes.isSome then throw Fault.data
        else do
          let changes ← FieldChanges.decode origin room value
          pure { parts with changes := some changes }
      else do
        let content ← decodeContent room value
        pure { parts with others := (key, content) :: parts.others }
    Record.sortMembers origin room fault parts rest

/-- Reads a record. -/
def Record.decode (origin : Origin) : Decoder Record
  | room + 1, .object members fault => do
    let parts ← Record.sortMembers origin room fault ⟨none, none, []⟩ members
    match parts.kind with
    | none => throw Fault.data
    | some kind =>
      let element ← decodeValue (Element.decode .value) (.object parts.others.reverse)
      return ⟨kind, element, parts.changes.getD .empty⟩
  | 0, .object _ _ => .error .grammar
  | _, other => .error (mismatch other)

/-- The fields of counts. -/
def Counts.fields : List (RecordField Counts) :=
  [.of "added" true decodeCount fun record value => { record with added := value },
    .of "removed" true decodeCount fun record value => { record with removed := value },
    .of "modified" true decodeCount fun record value => { record with modified := value }]

/-- Reads a summary. -/
def Summary.decode (origin : Origin) : Decoder Summary :=
  let counts := decodeRecord origin Counts.fields .zero
  let importCounts := decodeRecord origin (Counts.fields.take 2) .zero
  decodeRecord origin
    [.of "functions" true counts fun record value => { record with functions := value },
      .of "classes" true counts fun record value => { record with classes := value },
      .of "imports" true importCounts fun record value => { record with imports := value }]
    .zero

/-- Reads all records. -/
def Detail.decode (origin : Origin) : Decoder Detail :=
  let records := decodeList (Record.decode origin)
  decodeRecord origin
    [.of "functions" true records fun record value => { record with functions := value },
      .of "classes" true records fun record value => { record with classes := value },
      .of "imports" true records fun record value => { record with imports := value }]
    ⟨[], [], []⟩

/-- Reads a comparison. -/
def StructureDiff.decode (origin : Origin) : Decoder StructureDiff :=
  decodeRecord origin
    [.of "summary" true (Summary.decode origin) fun record value =>
        { record with summary := value },
      .of "diff" true (Detail.decode origin) fun record value => { record with detail := value }]
    ⟨.zero, ⟨[], [], []⟩⟩

/-- Reads one side. -/
def Side.decode (origin : Origin) : Decoder Side :=
  decodeRecord origin
    [.of "uri" true decodeString fun record value => { record with uri := value },
      .of "type" true (Structure.Kind.decode origin) fun record value =>
        { record with kind := value },
      .of "file_count" false (decodeOption decodeCount) fun record value =>
        { record with fileCount := value },
      .of "skipped_files" false decodeCount fun record value =>
        { record with skippedFiles := value }]
    ⟨"", .file, none, 0⟩

/-- Reads a report. -/
def Report.decode (origin : Origin) : Decoder Report :=
  decodeRecord origin
    [.of "left" true (Side.decode origin) fun record value => { record with left := value },
      .of "right" true (Side.decode origin) fun record value => { record with right := value },
      .of "summary" true (Summary.decode origin) fun record value =>
        { record with summary := value },
      .of "diff" true (Detail.decode origin) fun record value => { record with detail := value }]
    ⟨⟨"", .file, none, 0⟩, ⟨"", .file, none, 0⟩, .zero, ⟨[], [], []⟩⟩

namespace ElementDiff

/-- The parts of an element's comparison while it is read. -/
structure Parts where
  /-- The name. -/
  name : String
  /-- The element of a comparison that has one. -/
  element : Element
  /-- The old side. -/
  old : Element
  /-- The new side. -/
  new : Element
  /-- The changed fields. -/
  changes : FieldChanges

/-- Nothing read yet. -/
def Parts.blank : Parts := ⟨"", .blank, .blank, .blank, .empty⟩

/-- The field of the name. -/
def nameField : RecordField Parts :=
  .of "name" true decodeString fun parts value => { parts with name := value }

/-- The fields that follow from the type, and what is made of them. -/
def shape? (type : String) : Option (List (RecordField Parts) × (Parts → ElementDiff)) :=
  let element : RecordField Parts :=
    .of "element" true (Element.decode .value) fun parts value => { parts with element := value }
  let old : RecordField Parts :=
    .of "old" true (Element.decode .value) fun parts value => { parts with old := value }
  let new : RecordField Parts :=
    .of "new" true (Element.decode .value) fun parts value => { parts with new := value }
  let changes : RecordField Parts :=
    .of "changes" true (FieldChanges.decode .value) fun parts value =>
      { parts with changes := value }
  match type with
  | "not_found" => some ([nameField], fun parts => .notFound parts.name)
  | "added" => some ([nameField, element], fun parts => .added parts.name parts.element)
  | "removed" => some ([nameField, element], fun parts => .removed parts.name parts.element)
  | "unchanged" => some ([nameField, element], fun parts => .unchanged parts.name parts.element)
  | "modified" =>
    some ([nameField, old, new, changes],
      fun parts => .modified parts.name parts.old parts.new parts.changes)
  | _ => none

/-- Reads the type, which must be one of the known words. -/
def decodeType (draft : Draft) : Except Fault String := do
  let type ← decodeString 0 draft
  if (shape? type).isSome then return type else throw Fault.data

/-- Takes the type out of the members, and the others as they are written. -/
def takeType (room : Nat) (fault : Option Fault) (type : Option String)
    (others : List (String × Json)) :
    List (Literal × Draft) → Except Fault (Option String × List (String × Json))
  | [] =>
    match fault with
    | none => .ok (type, others.reverse)
    | some fault => .error fault
  | (name, value) :: rest => do
    let key ← name.content
    if key = "type" then
      if type.isSome then throw Fault.data
      else
        let found ← decodeType value
        takeType room fault (some found) others rest
    else
      let content ← decodeContent room value
      takeType room fault type ((key, content) :: others) rest

/-- Puts what follows the type in its places. -/
def ofContent (type : String) (content : Json) : Except Fault ElementDiff :=
  match shape? type with
  | none => .error .data
  | some (fields, make) =>
    (decodeValue (decodeRecord .value fields Parts.blank) content).map make

/-- Reads an element's comparison: an object, or an array that starts with the type. -/
def decode : Decoder ElementDiff
  | room + 1, .object members fault => do
    match ← takeType room fault none [] members with
    | (none, _) => throw Fault.data
    | (some type, others) => ofContent type (.object others)
  | room + 1, .array (first :: rest) fault => do
    let type ← decodeType first
    let items ← decodeContents room fault rest
    ofContent type (.array items)
  | _ + 1, .array [] (some fault) => .error fault
  | _ + 1, .array [] none => .error .data
  | 0, .object _ _ | 0, .array _ _ => .error .grammar
  | _, other => .error (mismatch other)

end ElementDiff

end CodeDelta
