import CodeDelta.Render.Grid
import CodeDelta.Render.Phrase
import CodeDelta.Document.Encode

/-!
# Showing a structure

The table lists every element and, below each class, its methods; when some element names its file,
a column tells the files. In the format of lines every element is one line, methods left out.
-/

namespace CodeDelta

open Render

namespace Structure

/-- What is told of a structure as a whole. -/
def facts (structure_ : Structure) : List String :=
  (structure_.language.map fun language => s!"language {language}").toList ++
    (structure_.fileCount.map fun count => s!"{count} files").toList ++
    (if structure_.skippedFiles = 0 then [] else [s!"{structure_.skippedFiles} skipped"]) ++
    [s!"{structure_.functions.length} functions, {structure_.classes.length} classes, " ++
      s!"{structure_.imports.length} imports"]

/-- A row of the table; `file` is there when files are told. -/
def row (kind name : String) (element : Element) (file : Option (Option String)) : List String :=
  [kind, name, orDash element.line, orDash element.lineCount, orDash element.complexity] ++
    (file.map orDash).toList

/-- The rows of an element and its methods; a method without a file stands in its class's. -/
def elementRows (tagged : Bool) (category : Category) (element : Element) : List (List String) :=
  let told (file : Option String) := if tagged then some file else none
  row category.word (element.identity category) element (told element.file) ::
    element.methods.map fun method =>
      row "method" s!"{element.name}.{method.name}" method (told (method.file.or element.file))

/-- The lines of the table. -/
def tableLines (options : Options) (structure_ : Structure) : List String :=
  let tagged := structure_.isFileTagged
  let columns : List Column :=
    [.text "kind", .text "name", .number "line", .number "lines", .number "complexity"] ++
      if tagged then [.text "file"] else []
  let rows := Category.all.flatMap fun category =>
    (structure_.elements category).flatMap (elementRows tagged category)
  let path := paint options.color [.yellow] (structure_.path.getD "-")
  [paint options.color [.bold, .cyan] "STRUCTURE:" ++ s!" {path} [{structure_.kind.word}]",
      paint options.color [.dimmed] (", ".intercalate structure_.facts), ""] ++
    gridLines options.compact columns rows

/-- One line per element. -/
def grepLines (structure_ : Structure) : List String :=
  Category.all.flatMap fun category => (structure_.elements category).map fun element =>
    grepLine [category.word, element.identity category] (locationOf element structure_.path)

/-- The structure in the format that is asked for. -/
def render (options : Options) (structure_ : Structure) : String :=
  match options.format with
  | .table => unlines (structure_.tableLines options)
  | .json => structure_.toJson.write options.layout
  | .grep => unlines structure_.grepLines

end Structure

end CodeDelta
