import CodeDelta.Json.Basic

/-!
# Writing JSON

Two layouts of one grammar: compact, without any blank, and pretty, with two spaces per level and
one item or member per line. Empty arrays and objects are `[]` and `\x7b\x7d` in both.
-/

namespace CodeDelta.Json

/-- How the parts of a document are spaced. -/
inductive Layout where
  | compact
  | pretty
deriving DecidableEq, Repr

/-- The digit of a value below sixteen. -/
def hexDigit (n : Nat) : Char :=
  if n < 10 then Char.ofNat (48 + n) else Char.ofNat (87 + n)

/-- A character of a string literal: the quote, the backslash and the control characters below
space are escaped, everything else stands for itself. -/
def escapeChar (c : Char) : List Char :=
  if c = '"' then ['\\', '"']
  else if c = '\\' then ['\\', '\\']
  else if c.toNat = 8 then ['\\', 'b']
  else if c.toNat = 12 then ['\\', 'f']
  else if c = '\n' then ['\\', 'n']
  else if c = '\r' then ['\\', 'r']
  else if c = '\t' then ['\\', 't']
  else if c.toNat < 32 then
    ['\\', 'u', '0', '0', hexDigit (c.toNat / 16), hexDigit (c.toNat % 16)]
  else [c]

/-- A string literal. -/
def writeString (text : List Char) : List Char :=
  '"' :: (text.flatMap escapeChar ++ ['"'])

/-- The decimal digits of a natural number. -/
def writeNat (n : Nat) : List Char := Nat.toDigits 10 n

/-- A number literal. -/
def writeNumber : Number → List Char
  | .integer (.ofNat n) => writeNat n
  | .integer (.negSucc n) => '-' :: writeNat (n + 1)
  | .decimal literal => literal.toList

/-- What stands before a part at `level` levels of nesting. -/
def Layout.lineBreak : Layout → Nat → List Char
  | .compact, _ => []
  | .pretty, level => '\n' :: List.replicate (2 * level) ' '

/-- What stands between a member's name and its value. -/
def Layout.colon : Layout → List Char
  | .compact => [':']
  | .pretty => [':', ' ']

mutual

/-- The text of a value that stands `level` levels deep. -/
def writeAt (layout : Layout) (level : Nat) : Json → List Char
  | .null => ['n', 'u', 'l', 'l']
  | .bool true => ['t', 'r', 'u', 'e']
  | .bool false => ['f', 'a', 'l', 's', 'e']
  | .number value => writeNumber value
  | .string value => writeString value.toList
  | .array [] => ['[', ']']
  | .array (item :: rest) =>
    '[' :: (layout.lineBreak (level + 1) ++ (writeAt layout (level + 1) item ++
      writeItems layout level rest))
  | .object [] => ['\x7b', '\x7d']
  | .object ((name, value) :: rest) =>
    '\x7b' :: (layout.lineBreak (level + 1) ++ (writeString name.toList ++ (layout.colon ++
      (writeAt layout (level + 1) value ++ writeMembers layout level rest))))

/-- The items after the first, and the end of the array. -/
def writeItems (layout : Layout) (level : Nat) : List Json → List Char
  | [] => layout.lineBreak level ++ [']']
  | item :: rest =>
    ',' :: (layout.lineBreak (level + 1) ++ (writeAt layout (level + 1) item ++
      writeItems layout level rest))

/-- The members after the first, and the end of the object. -/
def writeMembers (layout : Layout) (level : Nat) : List (String × Json) → List Char
  | [] => layout.lineBreak level ++ ['\x7d']
  | (name, value) :: rest =>
    ',' :: (layout.lineBreak (level + 1) ++ (writeString name.toList ++ (layout.colon ++
      (writeAt layout (level + 1) value ++ writeMembers layout level rest))))

end

/-- The text of a document, without a line break at its end. -/
def write (layout : Layout) (value : Json) : String := String.ofList (writeAt layout 0 value)

end CodeDelta.Json
