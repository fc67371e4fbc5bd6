import CodeDelta.Text.Blank

/-!
# Styled text

The formats a result is shown in, and the control sequences that colour a text on a terminal. A
styled text stands between a sequence that opens the style and one that resets it; a reset inside
the text is followed by the opening sequence again, so that the style holds up to the end.
-/

namespace CodeDelta.Render

/-- The formats of a result. -/
inductive Format where
  /-- Sections and grids for a reader. -/
  | table
  /-- A document. -/
  | json
  /-- One line per item. -/
  | grep
deriving DecidableEq, Repr, Inhabited

namespace Format

/-- The word for a format. -/
def word : Format → String
  | table => "table"
  | json => "json"
  | grep => "grep"

/-- The format that a word names exactly. -/
def ofExactWord? (text : String) : Option Format :=
  [table, json, grep].find? fun format => format.word == text

/-- The format that a word names, in letters of either case. -/
def ofWord? (text : String) : Option Format := ofExactWord? (Text.lowerAscii text)

/-- What is said of a word that names no format. -/
def unknown (text : String) : String := s!"Unknown output format: '{text}'"

end Format

/-- How a result is shown. -/
structure Options where
  /-- The format. -/
  format : Format
  /-- Whether texts are styled. -/
  color : Bool
  /-- Whether documents stand on one line and grids go without borders. -/
  compact : Bool
deriving DecidableEq, Repr, Inhabited

/-- The properties of a style. -/
inductive Attribute where
  | bold
  | dimmed
  | red
  | green
  | yellow
  | cyan
deriving DecidableEq, Repr

/-- The number that selects a property. -/
def Attribute.code : Attribute → Nat
  | bold => 1
  | dimmed => 2
  | red => 31
  | green => 32
  | yellow => 33
  | cyan => 36

/-- The sequence that ends every style. -/
def reset : List Char := ['\x1b', '[', '0', 'm']

/-- The sequence that starts a style. -/
def opening (style : List Attribute) : List Char :=
  '\x1b' :: '[' :: (";".intercalate (style.map fun part => toString part.code)).toList ++
    ['m']

/-- The text with `start` after every reset. -/
def reopen (start : List Char) : List Char → List Char
  | '\x1b' :: '[' :: '0' :: 'm' :: rest => reset ++ start ++ reopen start rest
  | c :: rest => c :: reopen start rest
  | [] => []

/-- The text in a style; without colours it stays as it is. -/
def paint (color : Bool) (style : List Attribute) (text : String) : String :=
  if color then
    String.ofList (opening style ++ reopen (opening style) text.toList ++ reset)
  else text

/-- Lines, each ended by a line break. -/
def unlines : List String → String
  | [] => ""
  | line :: rest => line ++ "\n" ++ unlines rest

/-- What is printed for a rendered text: a line break follows unless the text ends in one. -/
def printed (text : String) : String :=
  if text.toList.getLast? = some '\n' then text else text ++ "\n"

end CodeDelta.Render
