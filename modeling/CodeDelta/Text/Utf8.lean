/-!
# UTF-8

Decoding of bytes, with the place and the length of the first sequence that is not UTF-8. A
sequence is refused at its first byte; its length is that of the longest start of a valid sequence,
and at least one byte. A sequence that the end of the input cuts off is incomplete.
-/

namespace CodeDelta.Text

/-- Why bytes are not UTF-8. -/
inductive Utf8Fault where
  /-- The `length` bytes at `index` start no character. -/
  | invalid (index length : Nat)
  /-- The input ends inside the character at `index`. -/
  | incomplete (index : Nat)
deriving DecidableEq, Repr

/-- The sentence about bytes that are not UTF-8. -/
def Utf8Fault.message : Utf8Fault → String
  | .invalid index length => s!"invalid utf-8 sequence of {length} bytes from index {index}"
  | .incomplete index => s!"incomplete utf-8 byte sequence from index {index}"

/-- The number of bytes that follow a leading byte, and the bounds of the first of them; `none`
for a byte that leads no character. -/
def continuation? (byte : Nat) : Option (Nat × Nat × Nat) :=
  if byte < 0x80 then some (0, 0, 0)
  else if byte < 0xC2 then none
  else if byte < 0xE0 then some (1, 0x80, 0xBF)
  else if byte = 0xE0 then some (2, 0xA0, 0xBF)
  else if byte = 0xED then some (2, 0x80, 0x9F)
  else if byte < 0xF0 then some (2, 0x80, 0xBF)
  else if byte = 0xF0 then some (3, 0x90, 0xBF)
  else if byte < 0xF4 then some (3, 0x80, 0xBF)
  else if byte = 0xF4 then some (3, 0x80, 0x8F)
  else none

/-- The payload of a leading byte that `count` bytes follow. -/
def leadingBits (count byte : Nat) : Nat :=
  match count with
  | 0 => byte
  | 1 => byte % 0x20
  | 2 => byte % 0x10
  | _ => byte % 0x08

/-- What is under way between two bytes: nothing, or a character that started at `index`, of which
`taken` bytes are read and `missing` are awaited, the next one between two bounds. -/
inductive Utf8State where
  | between
  | inside (index taken missing least greatest value : Nat)

/-- Decodes bytes from a state; `index` is that of the next byte. -/
def decodeFrom (index : Nat) : Utf8State → List UInt8 → Except Utf8Fault (List Char)
  | .between, [] => .ok []
  | .inside start _ _ _ _ _, [] => .error (.incomplete start)
  | .between, byte :: rest =>
    match continuation? byte.toNat with
    | none => .error (.invalid index 1)
    | some (0, _, _) => (decodeFrom (index + 1) .between rest).map (Char.ofNat byte.toNat :: ·)
    | some (count + 1, least, greatest) =>
      decodeFrom (index + 1)
        (.inside index 1 (count + 1) least greatest (leadingBits (count + 1) byte.toNat)) rest
  | .inside start taken missing least greatest value, byte :: rest =>
    let b := byte.toNat
    if b < least ∨ greatest < b then .error (.invalid start taken)
    else
      let value := value * 0x40 + b % 0x40
      if missing ≤ 1 then
        (decodeFrom (index + 1) .between rest).map (Char.ofNat value :: ·)
      else decodeFrom (index + 1) (.inside start (taken + 1) (missing - 1) 0x80 0xBF value) rest

/-- Decodes bytes. -/
def decodeUtf8 (bytes : List UInt8) : Except Utf8Fault (List Char) :=
  decodeFrom 0 .between bytes

/-- Decodes bytes of which some may be no UTF-8: each sequence that is refused becomes one
replacement character. Every round takes at least one byte, so `rounds` may be their number. -/
def decodeLossyFrom : (rounds : Nat) → List UInt8 → List Char
  | 0, _ => []
  | rounds + 1, bytes =>
    match decodeUtf8 bytes with
    | .ok text => text
    | .error fault =>
      let (index, length) :=
        match fault with
        | .invalid index length => (index, length)
        | .incomplete index => (index, bytes.length - index)
      let valid := (decodeUtf8 (bytes.take index)).toOption.getD []
      valid ++ Char.ofNat 0xFFFD :: decodeLossyFrom rounds (bytes.drop (index + length))

/-- Decodes bytes of which some may be no UTF-8. -/
def decodeLossy (bytes : List UInt8) : List Char := decodeLossyFrom (bytes.length + 1) bytes

/-- The bytes of one character. -/
def encodeChar (c : Char) : List UInt8 :=
  let n := c.toNat
  let byte (k : Nat) : UInt8 := UInt8.ofNat k
  if n < 0x80 then [byte n]
  else if n < 0x800 then [byte (0xC0 + n / 0x40), byte (0x80 + n % 0x40)]
  else if n < 0x10000 then
    [byte (0xE0 + n / 0x1000), byte (0x80 + n / 0x40 % 0x40), byte (0x80 + n % 0x40)]
  else
    [byte (0xF0 + n / 0x40000), byte (0x80 + n / 0x1000 % 0x40), byte (0x80 + n / 0x40 % 0x40),
      byte (0x80 + n % 0x40)]

/-- The bytes of a text. -/
def encodeUtf8 (text : List Char) : List UInt8 := text.flatMap encodeChar

/-- Bytes, each read as the character of its number. -/
def octets (bytes : List UInt8) : List Char := bytes.map fun byte => Char.ofNat byte.toNat

/-- The bytes that were read so. -/
def ofOctets (text : List Char) : List UInt8 := text.map fun c => UInt8.ofNat c.toNat

end CodeDelta.Text
