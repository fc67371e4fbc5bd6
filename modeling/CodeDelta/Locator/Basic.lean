import CodeDelta.Locator.Fault
import CodeDelta.Text.Blank

/-!
# Locators of one resource

A locator is a scheme and a resource, written `scheme://resource`; a text without a scheme is a
path and gets the scheme `file`. A file locator is shown as its path alone.
-/

namespace CodeDelta

open Text

/-- The address of one resource. -/
structure Locator where
  /-- The scheme, in small letters when it was read from a text. -/
  scheme : String
  /-- What the scheme's adapter is asked for. -/
  resource : String
deriving DecidableEq, Repr, Inhabited

namespace Locator

/-- The scheme of bare paths. -/
def fileScheme : String := "file"

/-- The mark between scheme and resource. -/
def marker : List Char := [':', '/', '/']

/-- The parts before and after the first marker. -/
def splitMarker? : List Char → Option (List Char × List Char)
  | ':' :: '/' :: '/' :: rest => some ([], rest)
  | c :: rest => (splitMarker? rest).map fun parts => (c :: parts.1, parts.2)
  | [] => none

/-- The number of markers in a text. -/
def countMarkers : List Char → Nat
  | ':' :: '/' :: '/' :: rest => countMarkers rest + 1
  | _ :: rest => countMarkers rest
  | [] => 0

/-- Scheme names start with a letter and go on with letters, digits, `+`, `-`, `.` and `_`. -/
def isSchemeName : List Char → Bool
  | [] => false
  | c :: rest =>
    c.isAlpha &&
      rest.all fun d => d.isAlphanum || d == '+' || d == '-' || d == '.' || d == '_'

/-- Reads `scheme://resource`, or a bare path. -/
def parse (text : String) : Locator :=
  match splitMarker? text.toList with
  | some (scheme, resource) =>
    if isSchemeName scheme then
      ⟨String.ofList (scheme.map Char.toLower), String.ofList resource⟩
    else ⟨fileScheme, text⟩
  | none => ⟨fileScheme, text⟩

/-- A locator of the file system. -/
def isFile (locator : Locator) : Bool := locator.scheme == fileScheme

/-- The text shown for a locator. -/
def display (locator : Locator) : String :=
  if locator.isFile then locator.resource
  else locator.scheme ++ "://" ++ locator.resource

end Locator

end CodeDelta
