import CodeDelta.Render.Style
import CodeDelta.Text.Width
import CodeDelta.Diff.Change

/-!
# Grids

Rows of cells in columns. A column is as wide as its widest cell, a cell as its widest line, and a
row as tall as its tallest cell. Every cell has one blank at either side. A full grid has a border
and a rule below the header; a compact one has neither, and one blank between columns.
-/

namespace CodeDelta.Render

/-- The side of a cell that its text stands at. -/
inductive Align where
  | left
  | right
deriving DecidableEq, Repr

/-- A column's header and the side its cells' texts stand at. -/
structure Column where
  /-- The header. -/
  header : String
  /-- The side. -/
  align : Align
deriving DecidableEq, Repr

namespace Column

/-- A column of texts. -/
def text (header : String) : Column := ⟨header, .left⟩

/-- A column of numbers. -/
def number (header : String) : Column := ⟨header, .right⟩

end Column

namespace Grid

/-- The lines of a cell. -/
def cellLines (cell : String) : List (List Char) := Text.splitOnChar '\n' cell.toList

/-- The columns of the screen that a cell takes, blanks at its sides not counted. -/
def cellWidth (cell : String) : Nat := ((cellLines cell).map Text.lineWidth).foldl max 0

/-- The larger of two widths, column by column. -/
def widest : List Nat → List Nat → List Nat
  | a :: rest, b :: rest' => max a b :: widest rest rest'
  | rest, [] => rest
  | [], rest => rest

/-- The widths of the columns. -/
def widths (rows : List (List String)) : List Nat :=
  rows.foldl (fun known row => widest known (row.map cellWidth)) []

/-- A line filled up to a width, with a blank at either side. -/
def fill (align : Align) (width : Nat) (line : List Char) : List Char :=
  let gap := List.replicate (width - Text.lineWidth line) ' '
  match align with
  | .left => ' ' :: line ++ gap ++ [' ']
  | .right => ' ' :: gap ++ line ++ [' ']

/-- Parts between a first and a last character, with a character between each two. -/
def framed (frame : Option (Char × Char)) (between : Char) (parts : List (List Char)) :
    List Char :=
  let inner := Text.joinWith between parts
  match frame with
  | some (first, last) => first :: inner ++ [last]
  | none => inner

/-- The screen lines of a row. -/
def rowLines (compact : Bool) (columns : List (Align × Nat)) (row : List String) :
    List (List Char) :=
  let cells := row.map cellLines
  let height := (cells.map List.length).foldl max 0
  (List.range height).map fun i =>
    let parts := List.zipWith (fun (column : Align × Nat) lines =>
      fill column.1 column.2 (lines[i]?.getD [])) columns cells
    if compact then framed none ' ' parts else framed (some ('│', '│')) '│' parts

/-- A horizontal rule. -/
def rule (first between last : Char) (widths : List Nat) : List Char :=
  framed (some (first, last)) between (widths.map fun width => List.replicate (width + 2) '─')

end Grid

/-- The lines of a grid. -/
def gridLines (compact : Bool) (columns : List Column) (rows : List (List String)) :
    List String :=
  if rows.isEmpty then ["(no elements)"]
  else
    let header := columns.map Column.header
    let widths := Grid.widths (header :: rows)
    let layout := (columns.map Column.align).zip widths
    let head := Grid.rowLines compact layout header
    let body := rows.flatMap (Grid.rowLines compact layout)
    let lines :=
      if compact then head ++ body
      else
        [Grid.rule '╭' '┬' '╮' widths] ++ head ++ [Grid.rule '├' '┼' '┤' widths] ++ body ++
          [Grid.rule '╰' '┴' '╯' widths]
    lines.map String.ofList

/-- The grid of a summary; imports are never modified. -/
def summaryLines (compact : Bool) (summary : Summary) : List String :=
  gridLines compact
    [.text "category", .number "added", .number "removed", .number "modified"]
    (Category.all.map fun category =>
      let counts := summary.get category
      [category.plural, toString counts.added, toString counts.removed,
        if category = .importDecl then "-" else toString counts.modified])

end CodeDelta.Render
