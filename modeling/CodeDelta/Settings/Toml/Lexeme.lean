import CodeDelta.Json.Draft

/-!
# The words of TOML

Readers of blanks and comments, of strings, keys, numbers and times. A reader takes what it reads
from the start of a text and gives the rest, or nothing when the text does not start so. Numbers and
times are only told apart from what is none; a number too large for its type is none.
-/

namespace CodeDelta.Toml

/-- A reader. -/
abbrev Reader (α : Type) := List Char → Option (α × List Char)

/-- Spaces and tabs. -/
def isBlank (c : Char) : Bool := c == ' ' || c == '\t'

/-- The characters that comments and strings may hold: no controls but the tab. -/
def isPlain (c : Char) : Bool :=
  c == '\t' || (0x20 ≤ c.toNat && c.toNat != 0x7F)

/-- The text behind its blanks. -/
def skipBlanks (text : List Char) : List Char := text.dropWhile isBlank

/-- The text behind a comment, if it starts with one. -/
def skipComment : List Char → List Char
  | '#' :: rest => rest.dropWhile isPlain
  | text => text

/-- The text behind a line break. -/
def afterBreak? : List Char → Option (List Char)
  | '\n' :: rest => some rest
  | '\r' :: '\n' :: rest => some rest
  | _ => none

/-- The text behind the end of a line: blanks, a comment, and a line break or the end. -/
def afterLine? (text : List Char) : Option (List Char) :=
  match skipComment (skipBlanks text) with
  | [] => some []
  | text => afterBreak? text

/-- The text behind blanks, line breaks and comments. -/
def skipFiller (inComment : Bool) : List Char → List Char
  | [] => []
  | '\r' :: '\n' :: rest => skipFiller false rest
  | '\n' :: rest => skipFiller false rest
  | c :: rest =>
    if inComment then
      if isPlain c then skipFiller true rest else c :: rest
    else if isBlank c then skipFiller false rest
    else if c = '#' then skipFiller true rest
    else c :: rest

/-- The text behind some characters. -/
def after? (lead text : List Char) : Option (List Char) :=
  if lead.isPrefixOf text then some (text.drop lead.length) else none

/-- The value of hexadecimal digits. -/
def hexValue? (digits : List Char) : Option Nat :=
  digits.foldlM (fun value digit => (Json.hexValue? digit).map (value * 16 + ·)) 0

/-- The character of a number, which is none for surrogates and numbers that are too large. -/
def charOf? (n : Nat) : Option Char := if n.isValidChar then some (Char.ofNat n) else none

/-- Reads what stands behind a backslash. -/
def readEscape : Reader Char
  | 'b' :: rest => some ('\x08', rest)
  | 'f' :: rest => some ('\x0c', rest)
  | 'n' :: rest => some ('\n', rest)
  | 'r' :: rest => some ('\r', rest)
  | 't' :: rest => some ('\t', rest)
  | '"' :: rest => some ('"', rest)
  | '\\' :: rest => some ('\\', rest)
  | 'u' :: rest => readHex 4 rest
  | 'U' :: rest => readHex 8 rest
  | _ => none
where
  /-- Reads the number of a character in so many digits. -/
  readHex (count : Nat) (text : List Char) : Option (Char × List Char) := do
    let digits := text.take count
    guard (digits.length = count)
    let c ← charOf? (← hexValue? digits)
    return (c, text.drop count)

/-- Reads a string with escapes behind its quote; every round takes at least one character. -/
def readBasic : (rounds : Nat) → Reader (List Char)
  | 0, _ => none
  | _, [] => none
  | rounds + 1, c :: rest =>
    if c = '"' then some ([], rest)
    else if c = '\\' then do
      let (escaped, rest) ← readEscape rest
      let (content, rest) ← readBasic rounds rest
      return (escaped :: content, rest)
    else if isPlain c then
      (readBasic rounds rest).map fun read => (c :: read.1, read.2)
    else none

/-- Reads a string without escapes behind its quote. -/
def readLiteral : Reader (List Char)
  | [] => none
  | c :: rest =>
    if c = '\'' then some ([], rest)
    else if isPlain c then (readLiteral rest).map fun read => (c :: read.1, read.2)
    else none

/-- The content of a closing run of quotes: up to two quotes may stand before the closing three. -/
def readClosing (quote : Char) (text : List Char) : Option (List Char × List Char) :=
  let run := (text.takeWhile (· == quote)).length
  if run < 3 then none
  else
    let kept := min (run - 3) 2
    some (List.replicate kept quote, text.drop (kept + 3))

/-- The text behind a backslash that joins lines: blanks, a line break, and all blanks and line
breaks that follow. -/
def afterJoin? (text : List Char) : Option (List Char) :=
  (afterBreak? (skipBlanks text)).map skipBreaks
where
  /-- The text behind its blanks and line breaks. -/
  skipBreaks : List Char → List Char
    | '\r' :: '\n' :: rest => skipBreaks rest
    | c :: rest => if isBlank c || c == '\n' then skipBreaks rest else c :: rest
    | [] => []

/-- Reads a string over several lines behind its quotes; `escapes` tells whether a backslash
escapes. Every round takes at least one character. -/
def readLines (quote : Char) (escapes : Bool) : (rounds : Nat) → Reader (List Char)
  | 0, _ => none
  | _, [] => none
  | rounds + 1, c :: rest =>
    if c = quote then
      match readClosing quote (c :: rest) with
      | some closing => some closing
      | none => (readLines quote escapes rounds rest).map fun read => (c :: read.1, read.2)
    else if escapes ∧ c = '\\' then
      match afterJoin? rest with
      | some rest => readLines quote escapes rounds rest
      | none => do
        let (escaped, rest) ← readEscape rest
        let (content, rest) ← readLines quote escapes rounds rest
        return (escaped :: content, rest)
    else
      match afterBreak? (c :: rest) with
      | some rest =>
        (readLines quote escapes rounds rest).map fun read => ('\n' :: read.1, read.2)
      | none =>
        if isPlain c then
          (readLines quote escapes rounds rest).map fun read => (c :: read.1, read.2)
        else none

/-- Reads a string over several lines; a line break right behind its quotes does not count. -/
def readLongString (quote : Char) (text : List Char) : Option (List Char × List Char) :=
  let text := (afterBreak? text).getD text
  readLines quote (quote == '"') (text.length + 1) text

/-- Reads a string of any of the four forms. -/
def readString (text : List Char) : Option (String × List Char) :=
  let read :=
    match text with
    | '"' :: '"' :: '"' :: rest => readLongString '"' rest
    | '\'' :: '\'' :: '\'' :: rest => readLongString '\'' rest
    | '"' :: rest => readBasic (rest.length + 1) rest
    | '\'' :: rest => readLiteral rest
    | _ => none
  read.map fun read => (String.ofList read.1, read.2)

/-- The characters of keys without quotes. -/
def isBare (c : Char) : Bool := c.isAlphanum || c == '_' || c == '-'

/-- Reads one part of a key. -/
def readKeyPart (text : List Char) : Option (String × List Char) :=
  match text with
  | '"' :: rest => (readBasic (rest.length + 1) rest).map fun read => (String.ofList read.1, read.2)
  | '\'' :: rest => (readLiteral rest).map fun read => (String.ofList read.1, read.2)
  | _ =>
    match text.takeWhile isBare with
    | [] => none
    | name => some (String.ofList name, text.dropWhile isBare)

/-- Reads a key and the blanks around its parts; every round takes at least one character. -/
def readKeyParts : (rounds : Nat) → Reader (List String)
  | 0, _ => none
  | rounds + 1, text => do
    let (name, rest) ← readKeyPart (skipBlanks text)
    match skipBlanks rest with
    | '.' :: rest => do
      let (names, rest) ← readKeyParts rounds rest
      return (name :: names, rest)
    | rest => return ([name], rest)

/-- The bound on the parts of a key and on the nesting of values. -/
def maxDepth : Nat := 80

/-- Reads a key. -/
def readKey (text : List Char) : Option (List String × List Char) := do
  let (names, rest) ← readKeyParts (text.length + 1) text
  guard (names.length < maxDepth)
  return (names, rest)

/-- The digits that a text goes on with; a single `_` may stand between two of them. -/
def moreDigits (isDigit : Char → Bool) : List Char → List Char × List Char
  | '_' :: c :: rest =>
    if isDigit c then
      let (digits, rest) := moreDigits isDigit rest
      (c :: digits, rest)
    else ([], '_' :: c :: rest)
  | c :: rest =>
    if isDigit c then
      let (digits, rest) := moreDigits isDigit rest
      (c :: digits, rest)
    else ([], c :: rest)
  | [] => ([], [])

/-- Reads at least one digit. -/
def readDigits (isDigit : Char → Bool) : Reader (List Char)
  | c :: rest =>
    if isDigit c then
      let (digits, rest) := moreDigits isDigit rest
      some (c :: digits, rest)
    else none
  | [] => none

/-- Reads a sign: whether it is a minus. No sign is a plus. -/
def readSign : List Char → Bool × List Char
  | '-' :: rest => (true, rest)
  | '+' :: rest => (false, rest)
  | text => (false, text)

/-- Reads digits that start with a zero only if there is no other. -/
def readWhole : Reader (List Char)
  | '0' :: rest => some (['0'], rest)
  | text => readDigits Char.isDigit text

/-- The value of decimal digits. -/
def decimalValue (digits : List Char) : Nat :=
  digits.foldl (fun value digit => value * 10 + (digit.toNat - 48)) 0

/-- Reads the digits of a number in another base than ten, which must fit 63 bits. -/
def readBased (base : Nat) (text : List Char) : Option (Unit × List Char) := do
  let isDigit (c : Char) : Bool := (Json.hexValue? c).any (· < base)
  let (digits, rest) ← readDigits isDigit text
  let value := digits.foldl (fun value digit => value * base + (Json.hexValue? digit).getD 0) 0
  guard (value < Nat.pow 2 63)
  return ((), rest)

/-- Reads an integer, which must fit 64 bits with its sign. -/
def readInteger (text : List Char) : Option (Unit × List Char) :=
  match text with
  | '0' :: 'x' :: rest => readBased 16 rest
  | '0' :: 'o' :: rest => readBased 8 rest
  | '0' :: 'b' :: rest => readBased 2 rest
  | _ => do
    let (negative, rest) := readSign text
    let (digits, rest) ← readWhole rest
    guard (decimalValue digits < Nat.pow 2 63 + (if negative then 1 else 0))
    return ((), rest)

/-- Reads an exponent. -/
def readExponent : Reader Int
  | c :: rest =>
    if c = 'e' ∨ c = 'E' then do
      let (negative, rest) := readSign rest
      let (digits, rest) ← readDigits Char.isDigit rest
      let value : Int := decimalValue digits
      return (if negative then -value else value, rest)
    else none
  | [] => none

/-- Reads a number with a fraction or an exponent; a positive one must be finite. -/
def readFloat (text : List Char) : Option (Unit × List Char) :=
  let (negative, unsigned) := readSign text
  match after? "inf".toList unsigned, after? "nan".toList unsigned with
  | some rest, _ | none, some rest => some ((), rest)
  | none, none => do
    let (whole, rest) ← readWhole unsigned
    let (fraction, rest, isExact) ←
      match rest with
      | '.' :: rest => do
        let (fraction, rest) ← readDigits Char.isDigit rest
        some (fraction, rest, false)
      | _ => some ([], rest, true)
    let (exponent, rest) ←
      match readExponent rest with
      | some read => some read
      | none => if isExact then none else some (0, rest)
    let value := decimalValue (whole ++ fraction)
    guard (negative ∨ !Json.outOfRange value (exponent - fraction.length))
    return ((), rest)

/-- Reads a number of exactly two digits between bounds. -/
def readPair (least greatest : Nat) : Reader Nat
  | a :: b :: rest =>
    let value := decimalValue [a, b]
    if a.isDigit ∧ b.isDigit ∧ least ≤ value ∧ value ≤ greatest then some (value, rest) else none
  | _ => none

/-- Reads a time of day. -/
def readTime (text : List Char) : Option (Unit × List Char) := do
  let (_, rest) ← readPair 0 23 text
  let (_, rest) ← readPair 0 59 (← after? [':'] rest)
  let (_, rest) ← readPair 0 60 (← after? [':'] rest)
  match rest with
  | '.' :: c :: rest => if c.isDigit then return ((), rest.dropWhile Char.isDigit) else none
  | '.' :: [] => none
  | _ => return ((), rest)

/-- Reads the offset of a time. -/
def readOffset : Reader Unit
  | c :: rest =>
    if c = 'Z' ∨ c = 'z' then some ((), rest)
    else if c = '+' ∨ c = '-' then do
      let (_, rest) ← readPair 0 23 rest
      let (_, rest) ← readPair 0 59 (← after? [':'] rest)
      return ((), rest)
    else none
  | [] => none

/-- The days of a month. -/
def daysOf (year month : Nat) : Nat :=
  if month = 2 then if year % 4 = 0 ∧ (year % 100 ≠ 0 ∨ year % 400 = 0) then 29 else 28
  else if month = 4 ∨ month = 6 ∨ month = 9 ∨ month = 11 then 30
  else 31

/-- Reads a date. -/
def readDate (text : List Char) : Option (Unit × List Char) := do
  let year := text.take 4
  guard (year.length = 4 ∧ year.all Char.isDigit)
  let (month, rest) ← readPair 1 12 (← after? ['-'] (text.drop 4))
  let (day, rest) ← readPair 1 31 (← after? ['-'] rest)
  guard (day ≤ daysOf (decimalValue year) month)
  return ((), rest)

/-- Reads a date, a time of day, or both with or without an offset. -/
def readDateTime (text : List Char) : Option (Unit × List Char) :=
  match readDate text with
  | none => readTime text
  | some ((), c :: rest) =>
    if c = 'T' ∨ c = 't' ∨ c = ' ' then
      -- A date stands alone when no time follows its separator.
      match readTime rest with
      | some ((), rest) => some (((readOffset rest).getD ((), rest)))
      | none => some ((), c :: rest)
    else some ((), c :: rest)
  | some ((), []) => some ((), [])

end CodeDelta.Toml
