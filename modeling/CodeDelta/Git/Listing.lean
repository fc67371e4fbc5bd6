import CodeDelta.Text.Utf8
import CodeDelta.Text.Blank

/-!
# Listings of trees

Listings end every entry with a zero byte. A full entry is `mode kind object`, a tab and the path;
the path may hold any character, tabs and blanks too, so only the first tab counts.
-/

namespace CodeDelta.Git

/-- One entry of a listing. -/
structure TreeEntry where
  /-- The mode, in octal digits. -/
  mode : String
  /-- `blob`, `tree`, or `commit` for a submodule. -/
  kind : String
  /-- The path from the root of the repository. -/
  path : String
deriving DecidableEq, Repr

namespace TreeEntry

/-- Whether the entry is a file. -/
def isBlob (entry : TreeEntry) : Bool := entry.kind == "blob"

/-- Whether the entry is a directory. -/
def isTree (entry : TreeEntry) : Bool := entry.kind == "tree"

/-- Reads an entry without its zero byte. -/
def parse? (line : List Char) : Option TreeEntry := do
  let (meta_, path) ← Text.splitFirst? '\t' line
  match Text.words meta_ with
  | mode :: kind :: _ => some ⟨String.ofList mode, String.ofList kind, String.ofList path⟩
  | _ => none

end TreeEntry

/-- The runs of bytes between zero bytes. -/
def splitZero : List UInt8 → List (List UInt8)
  | [] => [[]]
  | byte :: rest =>
    if byte = 0 then [] :: splitZero rest
    else
      match splitZero rest with
      | piece :: pieces => (byte :: piece) :: pieces
      | [] => [[byte]]

/-- The entries of a listing as text; empty ones and those that are not UTF-8 are left out. -/
def listingLines (output : List UInt8) : List (List Char) :=
  ((splitZero output).filter fun piece => !piece.isEmpty).filterMap fun piece =>
    (Text.decodeUtf8 piece).toOption

/-- The paths of a listing of names. -/
def parseNames (output : List UInt8) : List String := (listingLines output).map String.ofList

/-- The entries of a full listing. -/
def parseEntries (output : List UInt8) : List TreeEntry :=
  (listingLines output).filterMap TreeEntry.parse?

end CodeDelta.Git
