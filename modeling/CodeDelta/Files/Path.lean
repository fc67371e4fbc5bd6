import CodeDelta.Text.Blank

/-!
# Paths

A path is read as components: repeated separators, separators at the end and inner `.` do not
count, a leading `.` does. Of what stands below a root only the named components are kept, so a
file's tag depends on the components alone and not on their spelling.
-/

namespace CodeDelta

/-- The parts that a path is made of. -/
inductive Component where
  /-- The separator that an absolute path starts with. -/
  | root
  /-- The `.` that a relative path starts with. -/
  | here
  /-- `..`. -/
  | up
  /-- A name. -/
  | named (name : String)
deriving DecidableEq, Repr, Inhabited

namespace Component

/-- The name, if the component is one. -/
def name? : Component → Option String
  | named name => some name
  | _ => none

/-- The component that a piece between separators stands for; nothing for an empty piece and for
`.`. -/
def ofPiece? (piece : List Char) : Option Component :=
  if piece = [] ∨ piece = ['.'] then none
  else if piece = ['.', '.'] then some up
  else some (named (String.ofList piece))

/-- The text of a component that is not the root. -/
def text : Component → String
  | root => ""
  | here => "."
  | up => ".."
  | named name => name

end Component

namespace Path

/-- The pieces between separators. -/
def pieces (path : String) : List (List Char) := Text.splitOnChar '/' path.toList

/-- Whether a path starts at the root. -/
def isAbsolute (path : String) : Bool := path.toList.head? == some '/'

/-- The components of a path. -/
def components (path : String) : List Component :=
  let lead :=
    if isAbsolute path then [.root]
    else if (pieces path).head? = some ['.'] then [.here] else []
  lead ++ (pieces path).filterMap Component.ofPiece?

/-- The path that components spell. -/
def ofComponents : List Component → String
  | .root :: rest => "/" ++ "/".intercalate (rest.map Component.text)
  | parts => "/".intercalate (parts.map Component.text)

/-- The components after those of a root. -/
def below? : List Component → List Component → Option (List Component)
  | parts, [] => some parts
  | [], _ :: _ => none
  | part :: parts, lead :: root => if part = lead then below? parts root else none

/-- The names among the components after those of a root, or among all when the path is not below
the root. -/
def namesBelow (path root : List Component) : List String :=
  ((below? path root).getD path).filterMap Component.name?

/-- The name of what a path leads to; none when the path ends in `..` or is only a root or `.`. -/
def fileName? (path : String) : Option String := (components path).getLast?.bind Component.name?

/-- What follows a name's last dot, unless the name has no other dot and starts with it. -/
def nameExtension? (name : String) : Option String :=
  match Text.splitLast? '.' name.toList with
  | some (stem, extension) => if stem.isEmpty then none else some (String.ofList extension)
  | none => none

/-- The extension of a path. -/
def extension? (path : String) : Option String := (fileName? path).bind nameExtension?

/-- The canonical form of the longest prefix that has one, followed by the names after it. A path
without such a prefix, or with a `..` in the way, stays as it is. `parts` are the components of
`text`, last one first, and `missing` the names found to have no canonical form yet. -/
def absolutizeFrom (canonical : String → Option (List String)) (whole : List Component)
    (text : String) : (parts : List Component) → (missing : List String) → List Component
  | parts, missing =>
    match canonical text with
    | some names => .root :: (names ++ missing).map .named
    | none =>
      match parts with
      | .named name :: rest =>
        let parent := if rest.isEmpty then "." else ofComponents rest.reverse
        absolutizeFrom canonical whole parent rest (name :: missing)
      | _ => whole

/-- The absolute form of a path that need not exist. -/
def absolutize (canonical : String → Option (List String)) (path : String) : List Component :=
  let text := if path = "" then "." else path
  let parts := components text
  absolutizeFrom canonical parts text parts.reverse []

end Path

end CodeDelta
