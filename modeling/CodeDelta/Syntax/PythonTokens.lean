import CodeDelta.Syntax.Token

/-!
# Tokens of Python

The scanner of Python sources. A string whose prefix has an `f` is a bracket: its replacement
fields are groups inside it, and within a field the tokens of the expression stand, up to the
conversion or the format, whose own fields are groups again. All other characters of strings are
passed over.
-/

namespace CodeDelta.Syntax.Python

/-- What the scanner is inside of. -/
inductive Mode where
  /-- Brackets. -/
  | bracket
  /-- The text of a string with fields: its quote, whether it is tripled, whether it is raw. -/
  | text (quote : Char) (tripled raw : Bool)
  /-- A replacement field. -/
  | field
  /-- The format of a replacement field. -/
  | format
deriving DecidableEq, Repr

/-- Characters that start names. -/
def startsName (c : Char) : Bool := c.isAlpha || c == '_' || c.toNat ≥ 128

/-- Characters of names. -/
def inName (c : Char) : Bool := c.isAlphanum || c == '_' || c.toNat ≥ 128

/-- Blanks, apart from line ends. -/
def isSpace (c : Char) : Bool :=
  c == ' ' || c == '\t' || c == '\r' || c.toNat == 12 || c.toNat == 0xFEFF ||
    c.toNat == 0x2060 || c.toNat == 0x200B

/-- The length of a run of blanks; a backslash at the end of a line is a blank, and the line end
with it. -/
def spaceLength : List Char → Nat
  | '\\' :: '\n' :: rest => spaceLength rest + 2
  | '\\' :: '\r' :: '\n' :: rest => spaceLength rest + 3
  | c :: rest => if isSpace c then spaceLength rest + 1 else 0
  | [] => 0

/-- The length of the leading characters of a class. -/
def runLength (inClass : Char → Bool) (source : List Char) : Nat :=
  (source.takeWhile inClass).length

/-- Digits and the underscores between them. -/
def isDigitOrGap (c : Char) : Bool := c.isDigit || c == '_'

/-- Hexadecimal digits and the underscores between them. -/
def isHexDigitOrGap (c : Char) : Bool :=
  isDigitOrGap c || ('a' ≤ c && c ≤ 'f') || ('A' ≤ c && c ≤ 'F')

/-- The length of an exponent. -/
def exponentLength : List Char → Nat
  | e :: sign :: digit :: rest =>
    if e == 'e' || e == 'E' then
      if sign.isDigit then runLength isDigitOrGap (sign :: digit :: rest) + 1
      else if (sign == '+' || sign == '-') && digit.isDigit then
        runLength isDigitOrGap (digit :: rest) + 2
      else 0
    else 0
  | [e, digit] => if (e == 'e' || e == 'E') && digit.isDigit then 2 else 0
  | _ => 0

/-- The length of a number. -/
def numberLength (source : List Char) : Nat :=
  match source with
  | '0' :: base :: rest =>
    if base == 'x' || base == 'X' then runLength isHexDigitOrGap rest + 2
    else if base == 'o' || base == 'O' || base == 'b' || base == 'B' then
      runLength isDigitOrGap rest + 2
    else decimal
  | _ => decimal
where
  /-- Whole part, fraction, exponent and suffix. -/
  decimal : Nat :=
    let whole := runLength isDigitOrGap source
    let afterWhole := source.drop whole
    let fraction :=
      match afterWhole with
      | '.' :: rest => runLength isDigitOrGap rest + 1
      | _ => 0
    let afterFraction := afterWhole.drop fraction
    let exponent := exponentLength afterFraction
    let suffix :=
      match afterFraction.drop exponent with
      | c :: _ => if c == 'j' || c == 'J' || c == 'l' || c == 'L' then 1 else 0
      | [] => 0
    whole + fraction + exponent + suffix

/-- Whether the source starts with three quotes. -/
def isTripled (quote : Char) : List Char → Bool
  | a :: b :: c :: _ => a == quote && b == quote && c == quote
  | _ => false

/-- The length of a string without fields, from after its opening quotes to after its closing
ones. -/
def stringLength (quote : Char) (tripled : Bool) : List Char → Nat
  | '\\' :: _ :: rest => stringLength quote tripled rest + 2
  | c :: rest =>
    if c == quote then
      if tripled then if isTripled quote (c :: rest) then 3 else stringLength quote tripled rest + 1
      else 1
    else stringLength quote tripled rest + 1
  | [] => 0

/-- A prefix of strings: letters among `f`, `r`, `b` and `u` of either size. -/
def isStringLead (letters : List Char) : Bool :=
  letters.all fun c => c.toLower == 'f' || c.toLower == 'r' || c.toLower == 'b' || c.toLower == 'u'

/-- The token of a string that starts with `lead` and the quote at the head of `source`. -/
def stringStep (stack : List Mode) (lead source : List Char) : TokenKind × Nat × List Mode :=
  match source with
  | [] => (.literal, lead.length, stack)
  | quote :: rest =>
    let tripled := isTripled quote source
    let opening := lead.length + if tripled then 3 else 1
    if lead.any fun c => c.toLower == 'f' then
      (.opening, opening, .text quote tripled (lead.any fun c => c.toLower == 'r') :: stack)
    else
      (.literal, opening + stringLength quote tripled (if tripled then source.drop 3 else rest),
        stack)

/-- The length of the text of a string with fields, up to a field or the closing quotes. -/
def textLength (quote : Char) (tripled raw : Bool) : List Char → Nat
  | [] => 0
  -- A doubled brace is text.
  | '\x7b' :: '\x7b' :: rest => textLength quote tripled raw rest + 2
  | '\x7b' :: _ => 0
  -- The braces behind `\N` hold the name of a character, except in raw strings.
  | '\\' :: 'N' :: '\x7b' :: rest =>
    if raw then 2 else textLength quote tripled raw rest + 3
  | '\\' :: '\x7b' :: _ => 1
  | '\\' :: c :: rest =>
    if raw && c != quote && c != '\\' then textLength quote tripled raw (c :: rest) + 1
    else textLength quote tripled raw rest + 2
  | c :: rest =>
    if c == quote then
      if tripled && !isTripled quote (c :: rest) then textLength quote tripled raw rest + 1 else 0
    else textLength quote tripled raw rest + 1
termination_by source => source.length

/-- The two-character marks. -/
def isLongMark (a b : Char) : Bool :=
  (a == ':' && b == '=') || (a == '-' && b == '>') || (a == '!' && b == '=') ||
    (a == '=' && b == '=')

/-- A token outside of string texts. -/
def codeStep (stack : List Mode) (source : List Char) : TokenKind × Nat × List Mode :=
  match source with
  | [] => (.blank, 1, stack)
  | c :: rest =>
    let space := spaceLength source
    if space > 0 then (.blank, space, stack)
    else if c == '\n' then (.lineEnd, 1, stack)
    else if c == '#' then (.comment, runLength (· != '\n') source, stack)
    else if startsName c then
      let name := source.takeWhile inName
      match source.drop name.length with
      | quote :: _ =>
        if (quote == '"' || quote == '\'') && isStringLead name then
          stringStep stack name (source.drop name.length)
        else (.word, name.length, stack)
      | [] => (.word, name.length, stack)
    else if c.isDigit then (.number, numberLength source, stack)
    else if c == '.' && (rest.head?.any Char.isDigit) then (.number, numberLength source, stack)
    else if c == '"' || c == '\'' then stringStep stack [] source
    else if c == '(' || c == '[' || c == '\x7b' then (.opening, 1, .bracket :: stack)
    else
      match stack with
      -- At the level of a replacement field a colon starts the format.
      | .field :: outer =>
        if c == '\x7d' then (.closing, 1, outer)
        else if c == ':' then (.mark, 1, .format :: outer)
        else (.mark, if rest.head?.any (isLongMark c) then 2 else 1, stack)
      | _ =>
        if c == ')' || c == ']' || c == '\x7d' then (.closing, 1, stack.tail)
        else (.mark, if rest.head?.any (isLongMark c) then 2 else 1, stack)

/-- The next token. -/
def step : Step (List Mode) := fun stack source =>
  match stack with
  | .text quote tripled raw :: outer =>
    let length := textLength quote tripled raw source
    if length > 0 then (.blank, length, stack)
    else if source.head? == some '\x7b' then (.opening, 1, .field :: stack)
    else (.closing, if tripled then 3 else 1, outer)
  | .format :: outer =>
    match source with
    | '\x7b' :: _ => (.opening, 1, .field :: stack)
    | '\x7d' :: _ => (.closing, 1, outer)
    | _ => (.blank, runLength (fun c => c != '\x7b' && c != '\x7d') source, stack)
  | _ => codeStep stack source

/-- The token trees of a source. -/
def tokenTrees (source : List Char) : List TokenTree :=
  nest (scan step source.length [] 0 0 source)

end CodeDelta.Syntax.Python
