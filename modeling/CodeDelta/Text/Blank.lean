/-!
# White space and words

The white space of Unicode, the words a text splits into, and the collapsed form in which words
stand one space apart. A collapsed text has no blank but single spaces between words, so two texts
with the same words collapse to the same text.
-/

namespace CodeDelta.Text

/-- The characters with the Unicode property White_Space. -/
def isBlank (c : Char) : Bool :=
  let n := c.toNat
  (9 ≤ n && n ≤ 13) || n == 0x20 || n == 0x85 || n == 0xA0 || n == 0x1680 ||
    (0x2000 ≤ n && n ≤ 0x200A) || n == 0x2028 || n == 0x2029 || n == 0x202F || n == 0x205F ||
    n == 0x3000

/-- The maximal runs of characters that are not blank, in order; `word` is the run in progress,
last character first. -/
def wordsFrom (word : List Char) : List Char → List (List Char)
  | [] => if word.isEmpty then [] else [word.reverse]
  | c :: rest =>
    if isBlank c then
      if word.isEmpty then wordsFrom [] rest else word.reverse :: wordsFrom [] rest
    else wordsFrom (c :: word) rest

/-- The words of a text. -/
def words (text : List Char) : List (List Char) := wordsFrom [] text

/-- Words one space apart. -/
def unwords : List (List Char) → List Char
  | [] => []
  | [word] => word
  | word :: rest => word ++ ' ' :: unwords rest

/-- The text with every run of blanks made one space, and none at its ends. -/
def collapseChars (text : List Char) : List Char := unwords (words text)

/-- `collapseChars` on strings. -/
def collapse (text : String) : String := String.ofList (collapseChars text.toList)

/-- The text without the blanks it ends in. -/
def trimRight (text : List Char) : List Char := (text.reverse.dropWhile isBlank).reverse

/-- The text without the blanks at its two ends. -/
def trim (text : List Char) : List Char := trimRight (text.dropWhile isBlank)

/-- Letters A to Z made small; every other character stays. -/
def lowerAscii (text : String) : String := String.ofList (text.toList.map Char.toLower)

/-- The pieces between occurrences of `mark`; there is always one more piece than marks. -/
def splitOnChar (mark : Char) : List Char → List (List Char)
  | [] => [[]]
  | c :: rest =>
    if c == mark then [] :: splitOnChar mark rest
    else
      match splitOnChar mark rest with
      | piece :: pieces => (c :: piece) :: pieces
      | [] => [[c]]

/-- Pieces with `mark` between them, the inverse of `splitOnChar`. -/
def joinWith (mark : Char) : List (List Char) → List Char
  | [] => []
  | [piece] => piece
  | piece :: rest => piece ++ mark :: joinWith mark rest

/-- What follows `lead`, when the text starts with it. -/
def dropLead? : List Char → List Char → Option (List Char)
  | [], text => some text
  | _ :: _, [] => none
  | c :: lead, d :: text => if c == d then dropLead? lead text else none

/-- The parts before and after the first `mark`. -/
def splitFirst? (mark : Char) : List Char → Option (List Char × List Char)
  | [] => none
  | c :: rest =>
    if c == mark then some ([], rest)
    else (splitFirst? mark rest).map fun parts => (c :: parts.1, parts.2)

/-- The parts before and after the last `mark`. -/
def splitLast? (mark : Char) : List Char → Option (List Char × List Char)
  | [] => none
  | c :: rest =>
    match splitLast? mark rest with
    | some parts => some (c :: parts.1, parts.2)
    | none => if c == mark then some ([], rest) else none

end CodeDelta.Text
