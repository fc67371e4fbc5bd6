import CodeDelta.Structure
import CodeDelta.Json.Basic

/-!
# Changes

The vocabulary of a comparison: what happened to an element, which of its fields differ and how,
the records of one category, and the counts over all of them.
-/

namespace CodeDelta

/-- What happened to an element. -/
inductive ChangeKind where
  | added
  | removed
  | modified
deriving DecidableEq, Repr, Inhabited

namespace ChangeKind

/-- The word for a kind of change. -/
def word : ChangeKind → String
  | .added => "added"
  | .removed => "removed"
  | .modified => "modified"

/-- The mark for a kind of change in outputs of one line per change. -/
def sigil : ChangeKind → Char
  | .added => '+'
  | .removed => '-'
  | .modified => '~'

/-- The kind that a word names. -/
def ofWord? (text : String) : Option ChangeKind :=
  [added, removed, modified].find? fun kind => kind.word == text

end ChangeKind

/-- The old and the new value of a field. -/
structure FieldChange where
  /-- The old value, `null` where there was none. -/
  old : Json
  /-- The new value, `null` where there is none. -/
  new : Json
  /-- How much a number grew, when both sides have one. -/
  delta : Option Int
  /-- The names that only the new side has. -/
  added : List String
  /-- The names that only the old side has. -/
  removed : List String
deriving DecidableEq, Repr, Inhabited

namespace FieldChange

/-- A change of a field that is no number. -/
def ofValues (old new : Json) : FieldChange := ⟨old, new, none, [], []⟩

/-- A number as a value. -/
def numberValue (n : Option Nat) : Json := n.elim .null Json.ofNat

/-- A text as a value. -/
def textValue (text : Option String) : Json := text.elim .null .string

/-- A change of a number. -/
def ofNumbers (old new : Option Nat) : FieldChange :=
  { ofValues (numberValue old) (numberValue new) with
    delta :=
      match old, new with
      | some old, some new => some ((new : Int) - (old : Int))
      | _, _ => none }

end FieldChange

/-- The changed fields of an element, sorted by name. -/
structure FieldChanges where
  /-- Names and changes. -/
  entries : List (String × FieldChange)
  /-- Every name stands once, and in order. -/
  ascending : Json.Ascending entries
deriving DecidableEq, Repr

namespace FieldChanges

/-- No field changed. -/
def empty : FieldChanges := ⟨[], List.Pairwise.nil⟩

instance : Inhabited FieldChanges := ⟨empty⟩

/-- Whether no field changed. -/
def isEmpty (changes : FieldChanges) : Bool := changes.entries.isEmpty

/-- Sets the change of a field. -/
def insert (changes : FieldChanges) (name : String) (change : FieldChange) : FieldChanges :=
  ⟨Json.insertMember name change changes.entries, Json.ascending_insertMember changes.ascending⟩

/-- The change of a field. -/
def get? (changes : FieldChanges) (name : String) : Option FieldChange :=
  changes.entries.lookup name

/-- The names of the changed fields. -/
def names (changes : FieldChanges) : List String := changes.entries.map Prod.fst

end FieldChanges

/-- What happened to one element. -/
structure Record where
  /-- What happened. -/
  kind : ChangeKind
  /-- The element; of a modified one the new side. -/
  element : Element
  /-- The changed fields of a modified element. -/
  changes : FieldChanges
deriving DecidableEq, Repr, Inhabited

namespace Record

/-- An element that only the new side has. -/
def added (element : Element) : Record := ⟨.added, element, .empty⟩

/-- An element that only the old side has. -/
def removed (element : Element) : Record := ⟨.removed, element, .empty⟩

/-- An element that both sides have with different fields. -/
def modified (element : Element) (changes : FieldChanges) : Record := ⟨.modified, element, changes⟩

end Record

/-- The counts of one category. -/
structure Counts where
  /-- Elements only on the new side. -/
  added : Nat
  /-- Elements only on the old side. -/
  removed : Nat
  /-- Elements whose fields differ. -/
  modified : Nat
deriving DecidableEq, Repr, Inhabited

namespace Counts

/-- No change. -/
def zero : Counts := ⟨0, 0, 0⟩

/-- All changes of a category. -/
def total (counts : Counts) : Nat := counts.added + counts.removed + counts.modified

/-- The count of one kind. -/
def get (counts : Counts) : ChangeKind → Nat
  | .added => counts.added
  | .removed => counts.removed
  | .modified => counts.modified

/-- Counts one more change. -/
def count (counts : Counts) : ChangeKind → Counts
  | .added => { counts with added := counts.added + 1 }
  | .removed => { counts with removed := counts.removed + 1 }
  | .modified => { counts with modified := counts.modified + 1 }

/-- The counts that are not zero, each with its word. -/
def phrases (counts : Counts) : List String :=
  [ChangeKind.added, .removed, .modified].filterMap fun kind =>
    if counts.get kind = 0 then none else some s!"{counts.get kind} {kind.word}"

end Counts

/-- The counts of all categories. -/
structure Summary where
  /-- Counts of functions. -/
  functions : Counts
  /-- Counts of classes. -/
  classes : Counts
  /-- Counts of imports, of which none is ever modified. -/
  imports : Counts
deriving DecidableEq, Repr, Inhabited

namespace Summary

/-- No change. -/
def zero : Summary := ⟨.zero, .zero, .zero⟩

/-- The counts of a category. -/
def get (summary : Summary) : Category → Counts
  | .function => summary.functions
  | .classDef => summary.classes
  | .importDecl => summary.imports

/-- Counts one more change of a category. -/
def count (summary : Summary) (category : Category) (kind : ChangeKind) : Summary :=
  match category with
  | .function => { summary with functions := summary.functions.count kind }
  | .classDef => { summary with classes := summary.classes.count kind }
  | .importDecl => { summary with imports := summary.imports.count kind }

/-- All changes. -/
def total (summary : Summary) : Nat :=
  summary.functions.total + summary.classes.total + summary.imports.total

/-- Whether nothing changed. -/
def isEmpty (summary : Summary) : Bool := summary.total == 0

/-- The summary in words; counts that are zero and categories without changes are left out. -/
def text (summary : Summary) : String :=
  let parts := Category.all.filterMap fun category =>
    match (summary.get category).phrases with
    | [] => none
    | phrases => some (category.plural ++ ": " ++ ", ".intercalate phrases)
  if parts.isEmpty then "No changes" else "; ".intercalate parts

end Summary

/-- The records of all categories. -/
structure Detail where
  /-- Records of functions. -/
  functions : List Record
  /-- Records of classes. -/
  classes : List Record
  /-- Records of imports. -/
  imports : List Record
deriving DecidableEq, Repr, Inhabited

namespace Detail

/-- The records of a category. -/
def get (detail : Detail) : Category → List Record
  | .function => detail.functions
  | .classDef => detail.classes
  | .importDecl => detail.imports

/-- Whether nothing changed. -/
def isEmpty (detail : Detail) : Bool :=
  Category.all.all fun category => (detail.get category).isEmpty

end Detail

/-- The comparison of two structures. -/
structure StructureDiff where
  /-- The counts. -/
  summary : Summary
  /-- The records. -/
  detail : Detail
deriving DecidableEq, Repr, Inhabited

/-- Whether anything changed. -/
def StructureDiff.hasChanges (diff : StructureDiff) : Bool := !diff.detail.isEmpty

/-- What is told about one side of a comparison. -/
structure Side where
  /-- The address. -/
  uri : String
  /-- What it named. -/
  kind : Structure.Kind
  /-- The number of files gathered. -/
  fileCount : Option Nat
  /-- The number of files left out. -/
  skippedFiles : Nat
deriving DecidableEq, Repr, Inhabited

namespace Side

/-- The side that a structure was read from. -/
def of (uri : String) (structure_ : Structure) : Side :=
  ⟨uri, structure_.kind, structure_.fileCount, structure_.skippedFiles⟩

/-- How many files were left out, of how many; nothing when none was. -/
def skippedNote (side : Side) : Option String :=
  if side.skippedFiles = 0 then none
  else some s!"{side.skippedFiles} of {side.fileCount.getD 0 + side.skippedFiles} files skipped"

end Side

/-- A comparison with its two sides. -/
structure Report where
  /-- The old side. -/
  left : Side
  /-- The new side. -/
  right : Side
  /-- The counts. -/
  summary : Summary
  /-- The records. -/
  detail : Detail
deriving DecidableEq, Repr, Inhabited

/-- The report of a comparison. -/
def Report.of (left right : Side) (diff : StructureDiff) : Report :=
  ⟨left, right, diff.summary, diff.detail⟩

end CodeDelta
