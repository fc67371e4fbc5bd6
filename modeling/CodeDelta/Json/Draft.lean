import CodeDelta.Json.Basic

/-!
# Reading JSON as far as it goes

A draft is what a text holds up to the first place where the grammar breaks; it keeps that place,
so that a reader of the draft meets the parts of the document in the order of the text and stops
at the first fault, whether of grammar or of content. A part that is passed over is checked less
strictly than one whose value is wanted: unpaired surrogates and numbers out of range are harmless
there, and a number cut off by the end of the text counts as a fault of grammar.
-/

namespace CodeDelta.Json

/-- Why a document is refused. -/
inductive Fault where
  /-- The text breaks the grammar. -/
  | grammar
  /-- A value is not what its place asks for. -/
  | data
  /-- The text ends too early. -/
  | ending
deriving DecidableEq, Repr, Inhabited

/-- A string literal that was read: its content where that is wanted, and the fault that stops
even a reader that passes over it. -/
structure Literal where
  /-- The characters, or the first fault on the way to them. -/
  content : Except Fault String
  /-- The fault met when the content is not wanted. -/
  passed : Option Fault
deriving Repr, Inhabited

/-- What a text holds up to its first fault of grammar. -/
inductive Draft where
  | null
  | bool (value : Bool)
  /-- A number where it is wanted, and the fault met when it is not. -/
  | number (value : Except Fault Number) (passed : Option Fault)
  | string (text : Literal)
  /-- The items in order; the fault stands where the next item or the end should be. -/
  | array (items : List Draft) (fault : Option Fault)
  /-- The members in order; the fault stands where the next member or the end should be. A name at
  which the reading stops is paired with the draft of what stands in the name's place. -/
  | object (members : List (Literal × Draft)) (fault : Option Fault)
  /-- No value stands here. -/
  | broken (fault : Fault)
deriving Repr, Inhabited

/-- The blanks between the parts of a document. -/
def isSpace (c : Char) : Bool := c == ' ' || c == '\n' || c == '\t' || c == '\r'

/-- The text after its leading blanks. -/
def skipSpace (text : List Char) : List Char := text.dropWhile isSpace

/-- The value of a hexadecimal digit. -/
def hexValue? (c : Char) : Option Nat :=
  if c.isDigit then some (c.toNat - 48)
  else if 'a' ≤ c ∧ c ≤ 'f' then some (c.toNat - 87)
  else if 'A' ≤ c ∧ c ≤ 'F' then some (c.toNat - 55)
  else none

/-- The number that four hexadecimal digits write. -/
def hexFour? (a b c d : Char) : Option Nat :=
  match hexValue? a, hexValue? b, hexValue? c, hexValue? d with
  | some a, some b, some c, some d => some (((a * 16 + b) * 16 + c) * 16 + d)
  | _, _, _, _ => none

/-- The character that a letter after a backslash stands for. -/
def unescape? (c : Char) : Option Char :=
  if c = '"' || c = '\\' || c = '/' then some c
  else if c = 'b' then some (Char.ofNat 8)
  else if c = 'f' then some (Char.ofNat 12)
  else if c = 'n' then some '\n'
  else if c = 'r' then some '\r'
  else if c = 't' then some '\t'
  else none

/-- What reading a string literal leaves: the characters or the first fault, and the rest of the
text or the fault met when the characters are not wanted. -/
structure LiteralRead where
  /-- The characters of the literal. -/
  content : Except Fault (List Char)
  /-- The text after the closing quote. -/
  rest : Except Fault (List Char)

/-- Puts a character in front of the content. -/
def LiteralRead.cons (c : Char) (read : LiteralRead) : LiteralRead :=
  { read with content := read.content.map (c :: ·) }

/-- Both readings stop here. -/
def LiteralRead.stop (fault : Fault) : LiteralRead := ⟨.error fault, .error fault⟩

/-- The content is lost, the rest of the literal can still be passed over. -/
def LiteralRead.spoil (read : LiteralRead) : LiteralRead := { read with content := .error .grammar }

/-- The number of bytes of a text. -/
def byteCount (text : List Char) : Nat := text.foldl (fun count c => count + c.utf8Size) 0

/-- Fewer than four characters follow `\u`: with fewer than four bytes the text ends too early. -/
def shortHex (text : List Char) : Fault :=
  if byteCount text < 4 then .ending else .grammar

/-- The fault of a high surrogate whose partner does not follow. -/
def lonely : List Char → Bool
  | [] => true
  | ['\\'] => true
  | '\\' :: 'u' :: rest => byteCount rest < 4
  | _ => false

/-- Reads a string literal after its opening quote. -/
def readLiteral : List Char → LiteralRead
  | [] => .stop .ending
  | '"' :: rest => ⟨.ok [], .ok rest⟩
  | '\\' :: 'u' :: a :: b :: c :: d :: rest =>
    match hexFour? a b c d with
    | none => .stop .grammar
    | some unit =>
      if 0xD800 ≤ unit ∧ unit ≤ 0xDBFF then
        match rest with
        | '\\' :: 'u' :: e :: f :: g :: h :: after =>
          match hexFour? e f g h with
          | none => .stop .grammar
          | some low =>
            if 0xDC00 ≤ low ∧ low ≤ 0xDFFF then
              (readLiteral after).cons
                (Char.ofNat (0x10000 + (unit - 0xD800) * 0x400 + (low - 0xDC00)))
            else (readLiteral ('\\' :: 'u' :: e :: f :: g :: h :: after)).spoil
        | other => if lonely other then .stop .ending else (readLiteral other).spoil
      else if 0xDC00 ≤ unit ∧ unit ≤ 0xDFFF then (readLiteral rest).spoil
      else (readLiteral rest).cons (Char.ofNat unit)
  | '\\' :: 'u' :: rest => .stop (shortHex rest)
  | ['\\'] => .stop .ending
  | '\\' :: c :: rest =>
    match unescape? c with
    | some char => (readLiteral rest).cons char
    | none => .stop .grammar
  | c :: rest => if c.toNat < 32 then .stop .grammar else (readLiteral rest).cons c
termination_by text => text.length

/-- Reads the letters of a word such as `null`; the fault is the end of the text or a letter that
differs. -/
def readWord : List Char → List Char → Except Fault (List Char)
  | [], text => .ok text
  | _ :: _, [] => .error .ending
  | c :: word, d :: text => if c = d then readWord word text else .error .grammar

/-- The leading digits that fit 64 bits: their number, and how many digits were left out. -/
def leadingDigits : Nat → Bool → List Char → Nat × Nat
  | value, _, [] => (value, 0)
  | value, full, c :: rest =>
    let next := value * 10 + (c.toNat - 48)
    if full || next ≥ Nat.pow 2 64 then
      let (value, dropped) := leadingDigits value true rest
      (value, dropped + 1)
    else leadingDigits next false rest

/-- A number whose leading digits and exponent give a magnitude of 2^1024 or more, as a double
rounds it, is out of range. -/
def outOfRange (value : Nat) (exponent : Int) : Bool :=
  value != 0 && exponent > 0 &&
    (exponent > 308 ||
      value * Nat.pow 10 exponent.toNat ≥ Nat.pow 2 1024 - Nat.pow 2 970)

/-- The number that decimal digits write. -/
def decimalValue (digits : List Char) : Nat :=
  digits.foldl (fun n c => n * 10 + (c.toNat - 48)) 0

/-- The value of a literal from its sign and digits. -/
def numberOf (literal : List Char) (negative : Bool) (whole fraction : List Char)
    (exponent : Option Int) : Except Fault Number :=
  let digits := decimalValue whole
  let isWhole := fraction.isEmpty && exponent.isNone
  if isWhole && !negative && digits < Nat.pow 2 64 then .ok (.integer digits)
  else if isWhole && negative && digits != 0 && digits ≤ Nat.pow 2 63 then
    .ok (.integer (-digits))
  else
    -- A number that no word holds is a decimal, whose size is checked on its leading digits.
    let (value, dropped) := leadingDigits 0 false whole
    let (value, scale) :=
      if dropped != 0 then (value, (dropped : Int))
      else
        let (value, dropped) := leadingDigits value false fraction
        (value, (dropped : Int) - fraction.length)
    if outOfRange value (scale + exponent.getD 0) then .error .grammar
    else .ok (.decimal (String.ofList literal))

/-- What reading a number leaves: the value where it is wanted, and the rest of the text or the
fault met when the number is passed over. -/
structure NumberRead where
  /-- The value, or the first fault. -/
  value : Except Fault Number
  /-- The text after the number. -/
  rest : Except Fault (List Char)

/-- No digit stands where one must: the end of the text is told apart only for a wanted number. -/
def NumberRead.missingDigit (text : List Char) : NumberRead :=
  ⟨.error (if text.isEmpty then .ending else .grammar), .error .grammar⟩

/-- Reads the exponent and finishes a number. -/
def readExponent (source : List Char) (negative : Bool) (whole fraction text : List Char) :
    NumberRead :=
  let finish (exponent : Option Int) (rest : List Char) : NumberRead :=
    ⟨numberOf (source.take (source.length - rest.length)) negative whole fraction exponent,
      .ok rest⟩
  match text with
  | 'e' :: after | 'E' :: after =>
    let (down, signed) :=
      match after with
      | '+' :: rest => (false, rest)
      | '-' :: rest => (true, rest)
      | _ => (false, after)
    let digits := signed.takeWhile Char.isDigit
    if digits.isEmpty then .missingDigit signed
    else
      let value := decimalValue digits
      finish (some (if down then -(value : Int) else value)) (signed.dropWhile Char.isDigit)
  | _ => finish none text

/-- Reads a number; a leading zero stands alone. -/
def readNumber (source : List Char) : NumberRead :=
  let (negative, text) :=
    match source with
    | '-' :: rest => (true, rest)
    | _ => (false, source)
  let whole := text.takeWhile Char.isDigit
  let after := text.dropWhile Char.isDigit
  if whole.isEmpty then .missingDigit after
  else if whole.head? == some '0' && whole.length > 1 then ⟨.error .grammar, .error .grammar⟩
  else
    match after with
    | '.' :: rest =>
      let fraction := rest.takeWhile Char.isDigit
      if fraction.isEmpty then .missingDigit rest
      else readExponent source negative whole fraction (rest.dropWhile Char.isDigit)
    | _ => readExponent source negative whole [] after

/-- The fault of a reading that leaves no text. -/
def faultOf : Except Fault (List Char) → Option Fault
  | .ok _ => none
  | .error fault => some fault

/-- The text a reading leaves. -/
def restOf : Except Fault (List Char) → Option (List Char)
  | .ok rest => some rest
  | .error _ => none

/-- The literal of a reading. -/
def LiteralRead.literal (read : LiteralRead) : Literal :=
  ⟨read.content.map String.ofList, faultOf read.rest⟩

mutual

/-- Reads one value; no text is left when a fault stops the reading. `fuel` exceeds twice the length
of the text. -/
def readValue : Nat → List Char → Draft × Option (List Char)
  | 0, _ => (.broken .ending, none)
  | fuel + 1, text =>
    match skipSpace text with
    | [] => (.broken .ending, none)
    | 'n' :: rest => word .null (readWord ['u', 'l', 'l'] rest)
    | 't' :: rest => word (.bool true) (readWord ['r', 'u', 'e'] rest)
    | 'f' :: rest => word (.bool false) (readWord ['a', 'l', 's', 'e'] rest)
    | '"' :: rest =>
      let read := readLiteral rest
      (.string read.literal, restOf read.rest)
    | '[' :: rest =>
      match skipSpace rest with
      | ']' :: after => (.array [] none, some after)
      | [] => (.array [] (some .ending), none)
      | other =>
        let (items, fault, left) := readItems fuel other
        (.array items fault, left)
    | '\x7b' :: rest =>
      match skipSpace rest with
      | '\x7d' :: after => (.object [] none, some after)
      | [] => (.object [] (some .ending), none)
      | other =>
        let (members, fault, left) := readMembers fuel other
        (.object members fault, left)
    | c :: rest =>
      if c == '-' || c.isDigit then
        let read := readNumber (c :: rest)
        (.number read.value (faultOf read.rest), restOf read.rest)
      else (.broken .grammar, none)
where
  /-- A word that stands for a value. -/
  word (value : Draft) : Except Fault (List Char) → Draft × Option (List Char)
    | .ok rest => (value, some rest)
    | .error fault => (.broken fault, none)

/-- Reads items up to the end of the array, from the start of an item. -/
def readItems : Nat → List Char → List Draft × Option Fault × Option (List Char)
  | 0, _ => ([], some .ending, none)
  | fuel + 1, text =>
    match readValue fuel text with
    | (item, none) => ([item], none, none)
    | (item, some rest) =>
      match skipSpace rest with
      | ']' :: after => ([item], none, some after)
      | ',' :: after =>
        match skipSpace after with
        -- A comma has to be followed by an item.
        | ']' :: _ => ([item, .broken .grammar], none, none)
        | other =>
          let (items, fault, left) := readItems fuel other
          (item :: items, fault, left)
      | [] => ([item], some .ending, none)
      | _ :: _ => ([item], some .grammar, none)

/-- Reads members up to the end of the object, from the start of a name. -/
def readMembers : Nat → List Char → List (Literal × Draft) × Option Fault × Option (List Char)
  | 0, _ => ([], some .ending, none)
  | fuel + 1, text =>
    match text with
    | '"' :: rest =>
      let read := readLiteral rest
      match read.rest with
      | .error _ => ([(read.literal, .string read.literal)], none, none)
      | .ok afterName =>
        match skipSpace afterName with
        | ':' :: afterColon =>
          match readValue fuel afterColon with
          | (value, none) => ([(read.literal, value)], none, none)
          | (value, some rest) =>
            match skipSpace rest with
            | '\x7d' :: after => ([(read.literal, value)], none, some after)
            | ',' :: after =>
              let (members, fault, left) := readMembers fuel (skipSpace after)
              ((read.literal, value) :: members, fault, left)
            | [] => ([(read.literal, value)], some .ending, none)
            | _ :: _ => ([(read.literal, value)], some .grammar, none)
        | [] => ([(read.literal, .broken .ending)], none, none)
        | _ :: _ => ([(read.literal, .broken .grammar)], none, none)
    | [] => ([], some .ending, none)
    -- No name stands here, but what does stand here is kept beside the fault.
    | other => ([(⟨.error .grammar, some .grammar⟩, (readValue fuel other).1)], none, none)

end

/-- A document: its draft, and the fault of text that follows it. -/
def readDocument (text : List Char) : Draft × Option Fault :=
  match readValue (2 * text.length + 1) text with
  | (draft, none) => (draft, none)
  | (draft, some rest) =>
    (draft, if (skipSpace rest).isEmpty then none else some .grammar)

mutual

/-- The draft of a value, which has no fault. -/
def Draft.ofValue : Json → Draft
  | .null => .null
  | .bool value => .bool value
  | .number value => .number (.ok value) none
  | .string value => .string ⟨.ok value, none⟩
  | .array items => .array (ofItems items) none
  | .object members => .object (ofMembers members) none

/-- The drafts of items. -/
def Draft.ofItems : List Json → List Draft
  | [] => []
  | item :: rest => Draft.ofValue item :: Draft.ofItems rest

/-- The drafts of members. -/
def Draft.ofMembers : List (String × Json) → List (Literal × Draft)
  | [] => []
  | (name, value) :: rest => (⟨.ok name, none⟩, Draft.ofValue value) :: Draft.ofMembers rest

end

mutual

/-- The first fault met when a part is passed over. -/
def Draft.passed : Draft → Option Fault
  | .null | .bool _ => none
  | .number _ fault => fault
  | .string text => text.passed
  | .array items fault => (passedItems items).or fault
  | .object members fault => (passedMembers members).or fault
  | .broken fault => some fault

/-- The first fault met when items are passed over. -/
def Draft.passedItems : List Draft → Option Fault
  | [] => none
  | item :: rest => item.passed.or (passedItems rest)

/-- The first fault met when members are passed over. -/
def Draft.passedMembers : List (Literal × Draft) → Option Fault
  | [] => none
  | (name, value) :: rest => (name.passed.or value.passed).or (passedMembers rest)

end

mutual

/-- The levels of arrays and objects in a draft. -/
def Draft.depth : Draft → Nat
  | .array items _ => depthItems items + 1
  | .object members _ => depthMembers members + 1
  | .null | .bool _ | .number _ _ | .string _ | .broken _ => 0

/-- The deepest of the items. -/
def Draft.depthItems : List Draft → Nat
  | [] => 0
  | item :: rest => max item.depth (depthItems rest)

/-- The deepest of the members. -/
def Draft.depthMembers : List (Literal × Draft) → Nat
  | [] => 0
  | (_, value) :: rest => max value.depth (depthMembers rest)

end

end CodeDelta.Json
