import CodeDelta.Git.Listing
import CodeDelta.Json.Draft

/-!
# Formats of listings

A listing of a tree can be asked for in a format. What stands in it is written for each entry as it
is, but for directives: a percent sign and behind it another one, an `n` for a line break, an `x`
with the two hexadecimal digits of a byte, or the name of a part of the entry in parentheses.
-/

namespace CodeDelta.Git

/-- What a format has written for an entry. -/
inductive FormatPart where
  /-- These bytes. -/
  | literal (bytes : List UInt8)
  /-- The mode. -/
  | mode
  /-- The kind. -/
  | kind
  /-- The name of the object. -/
  | object
  /-- The path. -/
  | path
deriving DecidableEq, Repr

namespace FormatPart

/-- The names of the parts of an entry. -/
def named : List (String × FormatPart) :=
  [("(objectmode)", mode), ("(objecttype)", kind), ("(objectname)", object), ("(path)", path)]

/-- The part that a directive stands for, from the text behind its percent sign, and how many
characters of the text belong to it. -/
def directive? : List Char → Option (FormatPart × Nat)
  | '%' :: _ => some (literal [37], 1)
  | 'n' :: _ => some (literal [10], 1)
  | 'x' :: high :: low :: _ => do
    let high ← Json.hexValue? high
    let low ← Json.hexValue? low
    some (literal [UInt8.ofNat (high * 16 + low)], 3)
  | text =>
    (named.find? fun entry => entry.1.toList.isPrefixOf text).map fun entry =>
      (entry.2, entry.1.length)

/-- The parts of a format; none when a percent sign starts no directive. -/
def ofFormat? : List Char → Option (List FormatPart)
  | [] => some []
  | '%' :: text =>
    (directive? text).bind fun (part, width) => (ofFormat? (text.drop width)).map (part :: ·)
  | c :: text => (ofFormat? text).map (literal (Text.encodeUtf8 [c]) :: ·)
termination_by text => text.length
decreasing_by
  · rw [List.length_drop, List.length_cons]
    omega
  · exact Nat.lt_succ_self _

/-- What a part writes for an entry; the names of objects are not told apart. -/
def bytes (entry : TreeEntry) : FormatPart → List UInt8
  | literal bytes => bytes
  | mode => Text.encodeUtf8 entry.mode.toList
  | kind => Text.encodeUtf8 entry.kind.toList
  | object => Text.encodeUtf8 ['0']
  | path => Text.encodeUtf8 entry.path.toList

end FormatPart

/-- An entry in a format, without its zero byte. -/
def TreeEntry.inFormat? (format : List Char) (entry : TreeEntry) : Option (List UInt8) :=
  (FormatPart.ofFormat? format).map fun parts => parts.flatMap (·.bytes entry)

end CodeDelta.Git
