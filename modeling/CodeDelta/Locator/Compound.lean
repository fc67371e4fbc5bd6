import CodeDelta.Locator.Basic

/-!
# Locators of two resources

A compound locator names two resources with one colon between them, `left:right`, and may end in
`/element` when the right side is a path. Colons also stand in scheme markers (`git://…`) and in
drive letters (`C:\…`), so the number of markers decides where the separating colon is looked for.
Whatever the way, a split text is its left side, a colon and its right side.
-/

namespace CodeDelta

open Text

namespace Locator

/-- A colon belongs to a drive when a single capital letter opens the path segment before it and a
path separator follows it. `before` holds the preceding characters, nearest first. -/
def closesDrive (before after : List Char) : Bool :=
  (match before with
    | letter :: earlier =>
      letter.isUpper &&
        (match earlier with
          | [] => true
          | c :: _ => c == '/' || c == '\\' || c == ':')
    | [] => false) &&
  (match after with
    | c :: _ => c == '/' || c == '\\'
    | [] => false)

/-- The parts around the first colon that belongs to no drive; `before` holds what was passed,
nearest first. -/
def splitPlainFrom (before : List Char) : List Char → Option (List Char × List Char)
  | [] => none
  | c :: after =>
    if c == ':' && !closesDrive before after then some (before.reverse, after)
    else splitPlainFrom (c :: before) after

/-- Splits a text without markers. A lone colon separates even where it looks like a drive's. -/
def splitPlain? (text : List Char) : Option (List Char × List Char) :=
  if text.count ':' = 1 then splitFirst? ':' text else splitPlainFrom [] text

/-- Splits a text with one marker: the right side owns the marker when a colon precedes it, the
left side otherwise. -/
def splitOneMarker? (text : List Char) : Option (List Char × List Char) :=
  match splitMarker? text with
  | none => none
  | some (before, after) =>
    match splitLast? ':' before with
    | some (left, scheme) => some (left, scheme ++ marker ++ after)
    | none => (splitPlain? after).map fun parts => (before ++ marker ++ parts.1, parts.2)

/-- Splits a text with two markers at the last colon between them. -/
def splitTwoMarkers? (text : List Char) : Option (List Char × List Char) :=
  match splitMarker? text with
  | none => none
  | some (before, after) =>
    match splitMarker? after with
    | none => none
    | some (middle, body) =>
      (splitLast? ':' middle).map fun parts =>
        (before ++ marker ++ parts.1, parts.2 ++ marker ++ body)

/-- The split that the number of markers asks for, or the reason why there is none. -/
def splitByMarkers (text : List Char) : Except Fault (List Char × List Char) :=
  let orElse (split : Option (List Char × List Char)) (fault : String → Fault) :
      Except Fault (List Char × List Char) :=
    match split with
    | some sides => .ok sides
    | none => .error (fault (String.ofList text))
  match countMarkers text with
  | 0 => orElse (splitPlain? text) .noSeparator
  | 1 => orElse (splitOneMarker? text) .noSeparatorAfterScheme
  | 2 => orElse (splitTwoMarkers? text) .noSeparatorBetweenSchemes
  | count => .error (.manyMarkers (String.ofList text) count)

/-- The two sides of a compound locator, as characters; neither is empty. -/
def splitSides (text : List Char) : Except Fault (List Char × List Char) :=
  match splitByMarkers text with
  | .error fault => .error fault
  | .ok (left, right) =>
    if left.isEmpty || right.isEmpty then .error (.emptySide (String.ofList text))
    else .ok (left, right)

/-- The two sides of a compound locator. -/
def splitCompound (text : String) : Except Fault (String × String) :=
  (splitSides text.toList).map fun sides => (String.ofList sides.1, String.ofList sides.2)

/-- Takes `/element` off a resource when the resource does not exist but the path before its last
slash does. -/
def splitElement (resource : String) (pathExists : String → Bool) : String × Option String :=
  if pathExists resource then (resource, none)
  else
    match splitLast? '/' resource.toList with
    | some (base, name) =>
      if !base.isEmpty && !name.isEmpty && pathExists (String.ofList base) then
        (String.ofList base, some (String.ofList name))
      else (resource, none)
    | none => (resource, none)

/-- Two resources to compare, and the element the comparison is narrowed to. -/
structure Compound where
  /-- The old side. -/
  left : Locator
  /-- The new side. -/
  right : Locator
  /-- The element named after the right side's path. -/
  element : Option String
deriving DecidableEq, Repr

/-- The word that may stand in front of a compound locator. -/
def compoundLead : List Char := "diff://".toList

/-- Reads a compound locator; `pathExists` tells an element name from the last part of a path. -/
def Compound.parse (text : String) (pathExists : String → Bool) : Except Fault Compound :=
  let body := (dropLead? compoundLead text.toList).getD text.toList
  match splitCompound (String.ofList body) with
  | .error fault => .error fault
  | .ok (leftText, rightText) =>
    let left := Locator.parse leftText
    let right := Locator.parse rightText
    if right.isFile then
      match splitElement right.resource pathExists with
      | (path, some element) => .ok ⟨left, ⟨fileScheme, path⟩, some element⟩
      | (_, none) => .ok ⟨left, right, none⟩
    else .ok ⟨left, right, none⟩

end Locator

end CodeDelta
