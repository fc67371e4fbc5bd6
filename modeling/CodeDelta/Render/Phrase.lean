import CodeDelta.Render.Style
import CodeDelta.Json.Writer
import CodeDelta.Diff.Change

/-!
# Phrases

How an element, its place and the change of a field are told in one line. The place of an element
is the file, with the line when it is known; without a file there is no place.
-/

namespace CodeDelta.Render

/-- A value, or a dash where there is none. -/
def orDash [ToString α] (value : Option α) : String := value.elim "-" toString

/-- The place of a line in a file. -/
def location : Option String → Option Nat → Option String
  | some file, some line => some s!"{file}:{line}"
  | some file, none => some file
  | none, _ => none

/-- The place of an element, in the file it names or else in `fallback`. -/
def locationOf (element : Element) (fallback : Option String) : Option String :=
  location (element.file.or fallback) element.line

/-- The words, one blank apart, and the place when there is one. -/
def grepLine (words : List String) (place : Option String) : String :=
  " ".intercalate (words ++ place.toList)

/-- The line of one change: what happened, to what, and where. -/
def changeLine (sigil : Char) (category : Category) (element : Element)
    (fallback : Option String) : String :=
  grepLine [sigil.toString, category.word, element.identity category] (locationOf element fallback)

/-- A field's value: a text as it is, nothing as a dash, all else as a document. -/
def valueText : Json → String
  | .null => "-"
  | .string text => text
  | value => value.write .compact

/-- How much a number grew, always with its sign. -/
def deltaText : Int → String
  | .ofNat n => s!"+{n}"
  | .negSucc n => s!"-{n + 1}"

/-- The change of one field. -/
def changeText (color : Bool) (field : String) (change : FieldChange) : String :=
  let names (word : String) (style : Attribute) : List String → String
    | [] => ""
    | names => s!" {word}: " ++ paint color [style] (", ".intercalate names)
  paint color [.dimmed] field ++ s!": {valueText change.old} -> {valueText change.new}" ++
    change.delta.elim "" (fun delta => s!" ({deltaText delta})") ++
    names "added" .green change.added ++ names "removed" .red change.removed

/-- The lines of all changed fields, set off below their element. -/
def changesLines (color : Bool) (changes : FieldChanges) : List String :=
  changes.entries.map fun entry => "      " ++ changeText color entry.1 entry.2

/-- An element in one line: how it is called, where it stands, how complex it is. -/
def elementText (element : Element) : String :=
  let place :=
    (locationOf element none).or (element.line.map fun line => s!"line {line}")
  let complexity := element.complexity.map fun complexity => s!"complexity {complexity}"
  "  ".intercalate ([element.signature.getD element.name] ++ place.toList ++ complexity.toList)

/-- The line breaks and blanks of a document. -/
def Options.layout (options : Options) : Json.Layout :=
  if options.compact then .compact else .pretty

end CodeDelta.Render
