import CodeDelta.Syntax.Token
import CodeDelta.Text.Blank

/-!
# Tokens of Rust

The scanner of Rust sources. Operators are scanned one character at a time, because whether two
angle brackets belong together depends on what they close; who needs a longer operator looks at
neighbours that touch.
-/

namespace CodeDelta.Syntax.Rust

/-- Characters that start names. -/
def startsName (c : Char) : Bool :=
  c.isAlpha || c == '_' || (c.toNat ≥ 128 && !Text.isBlank c && c.toNat != 0xFEFF)

/-- Characters of names. -/
def inName (c : Char) : Bool := c.isDigit || startsName c

/-- Blanks, line ends included. -/
def isSpace (c : Char) : Bool := Text.isBlank c || c.toNat == 0xFEFF

/-- The length of a block comment after its opening, with `depth` comments open. -/
def commentLength (depth : Nat) : List Char → Nat
  | '*' :: '/' :: rest => if depth ≤ 1 then 2 else commentLength (depth - 1) rest + 2
  | '/' :: '*' :: rest => commentLength (depth + 1) rest + 2
  | _ :: rest => commentLength depth rest + 1
  | [] => 0

/-- The length of a string after its opening quote. -/
def stringLength : List Char → Nat
  | '\\' :: _ :: rest => stringLength rest + 2
  | '"' :: _ => 1
  | _ :: rest => stringLength rest + 1
  | [] => 0

/-- The length of a raw string after its opening quote, up to a quote and as many hashes. -/
def rawLength (hashes : Nat) : List Char → Nat
  | [] => 0
  | '"' :: rest =>
    if (rest.take hashes).length == hashes && (rest.take hashes).all (· == '#') then hashes + 1
    else rawLength hashes rest + 1
  | _ :: rest => rawLength hashes rest + 1

/-- The length of a character literal after its opening quote, when it starts with a backslash. -/
def charLength : List Char → Nat
  | '\\' :: _ :: rest => charLength rest + 2
  | '\'' :: _ => 1
  | _ :: rest => charLength rest + 1
  | [] => 0

/-- The token at a quote `'`: a character literal or a label. -/
def quoteStep (rest : List Char) : TokenKind × Nat :=
  match rest with
  | '\\' :: _ => (.literal, charLength rest + 1)
  | _ :: '\'' :: _ => (.literal, 3)
  | _ => (.label, (rest.takeWhile inName).length + 1)

/-- The length of a number. -/
def numberLength (source : List Char) : Nat :=
  let whole := source.takeWhile inName
  let exponent (digits rest : List Char) : Nat :=
    let isHex := digits.take 2 == ['0', 'x']
    match digits.getLast?, rest with
    | some e, sign :: after =>
      if !isHex && (e == 'e' || e == 'E') && (sign == '+' || sign == '-') then
        (after.takeWhile inName).length + 1
      else 0
    | _, _ => 0
  match source.drop whole.length with
  | '.' :: next :: rest =>
    if next.isDigit then
      let fraction := (next :: rest).takeWhile inName
      whole.length + 1 + fraction.length + exponent fraction ((next :: rest).drop fraction.length)
    else if next == '.' || startsName next then whole.length
    else whole.length + 1
  | ['.'] => whole.length + 1
  | rest => whole.length + exponent whole rest

/-- The token at a name: a raw name, a string with a prefix, a byte, or a word. -/
def nameStep (source : List Char) : TokenKind × Nat :=
  let name := source.takeWhile inName
  let rest := source.drop name.length
  let isRaw := name == ['r'] || name == ['b', 'r'] || name == ['c', 'r']
  let hashes := (rest.takeWhile (· == '#')).length
  match rest with
  | '"' :: after =>
    if isRaw then (.literal, name.length + 1 + rawLength 0 after)
    else if name == ['b'] || name == ['c'] then (.literal, name.length + 1 + stringLength after)
    else (.word, name.length)
  | '\'' :: after =>
    if name == ['b'] then (.literal, 1 + (quoteStep after).2) else (.word, name.length)
  | '#' :: after =>
    if isRaw && (rest.drop hashes).head? == some '"' then
      (.literal, name.length + hashes + 1 + rawLength hashes (rest.drop (hashes + 1)))
    else if name == ['r'] && after.head?.any startsName then
      (.word, 2 + (after.takeWhile inName).length)
    else (.word, name.length)
  | _ => (.word, name.length)

/-- Whether the source starts with a line for the operating system: `#!` and no bracket. -/
def startsWithShebang : List Char → Bool
  | '#' :: '!' :: rest =>
    (rest.dropWhile fun c => c == ' ' || c == '\t' || c == '\r').head? != some '['
  | _ => false

/-- The next token; the state tells whether the source starts here. -/
def step : Step Bool := fun atStart source =>
  let (kind, length) : TokenKind × Nat :=
    match source with
    | [] => (.blank, 1)
    | c :: rest =>
      if atStart && startsWithShebang source then
        (.comment, (source.takeWhile (· != '\n')).length)
      else if isSpace c then (.blank, (source.takeWhile isSpace).length)
      else if c == '/' && rest.head? == some '/' then
        (.comment, (source.takeWhile (· != '\n')).length)
      else if c == '/' && rest.head? == some '*' then
        (.comment, commentLength 1 (rest.drop 1) + 2)
      else if startsName c then nameStep source
      else if c.isDigit then (.number, numberLength source)
      else if c == '"' then (.literal, stringLength rest + 1)
      else if c == '\'' then quoteStep rest
      else if c == '(' || c == '[' || c == '\x7b' then (.opening, 1)
      else if c == ')' || c == ']' || c == '\x7d' then (.closing, 1)
      else (.mark, 1)
  (kind, length, false)

/-- The tokens of a source. -/
def tokens (source : List Char) : List Token := scan step source.length true 0 0 source

end CodeDelta.Syntax.Rust
