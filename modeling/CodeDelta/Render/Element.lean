import CodeDelta.Render.Phrase
import CodeDelta.Document.Encode

/-!
# Showing the comparison of one element

The table says what became of the element, and shows both versions of one that was modified. In
the format of lines the element is one line, or none when neither side has it; an element with
bases or methods is called a class, every other a function.
-/

namespace CodeDelta

open Render

namespace ElementReport

/-- The lines below the heading. -/
def outcomeLines (color : Bool) : ElementDiff → List String
  | .notFound _ => [paint color [.dimmed] "not found on either side"]
  | .added _ element => [paint color [.bold, .green] "ADDED" ++ " " ++ elementText element]
  | .removed _ element => [paint color [.bold, .red] "REMOVED" ++ " " ++ elementText element]
  | .unchanged _ element => [paint color [.dimmed] "UNCHANGED" ++ " " ++ elementText element]
  | .modified _ old new changes =>
    [paint color [.bold, .yellow] "MODIFIED",
      "  " ++ paint color [.red] "-" ++ " " ++ elementText old,
      "  " ++ paint color [.green] "+" ++ " " ++ elementText new] ++ changesLines color changes

/-- The lines of the table. -/
def tableLines (color : Bool) (report : ElementReport) : List String :=
  (paint color [.bold, .cyan] "ELEMENT:" ++ " " ++ paint color [.bold] report.diff.name ++ " in " ++
      paint color [.yellow] report.left ++ " -> " ++ paint color [.green] report.right) ::
    outcomeLines color report.diff

/-- The category that an element is told under. -/
def categoryOf (element : Element) : Category :=
  if element.bases.isEmpty && element.methods.isEmpty then .function else .classDef

/-- The line of the element. -/
def grepLines (report : ElementReport) : List String :=
  let line (sigil : Char) (element : Element) (file : String) :=
    [changeLine sigil (categoryOf element) element (some file)]
  match report.diff with
  | .notFound _ => []
  | .added _ element => line '+' element report.right
  | .removed _ element => line '-' element report.left
  | .unchanged _ element => line '=' element report.right
  | .modified _ _ new _ => line '~' new report.right

/-- The comparison in the format that is asked for. -/
def render (options : Options) (report : ElementReport) : String :=
  match options.format with
  | .table => unlines (report.tableLines options.color)
  | .json => report.toJson.write options.layout
  | .grep => unlines report.grepLines

end ElementReport

end CodeDelta
