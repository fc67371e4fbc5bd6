import CodeDelta.Files.Path
import CodeDelta.Files.Tree
import CodeDelta.Text.Utf8

/-!
# Workspaces

What a command can see: the files of the disk, the directory it works in and its standard input.
A path is followed name by name; a name that is a link leads to the link's target, and every name
but the last one has to be a directory.
-/

namespace CodeDelta

/-- Why a path leads nowhere, or a file is not read. -/
inductive FileFault where
  | missing
  | notDirectory
  | isDirectory
  | tooManyLinks
  | zeroByte
  | notUtf8
deriving DecidableEq, Repr

/-- The operating system's words. -/
def FileFault.message : FileFault → String
  | missing => "No such file or directory (os error 2)"
  | notDirectory => "Not a directory (os error 20)"
  | isDirectory => "Is a directory (os error 21)"
  | tooManyLinks => "Too many levels of symbolic links (os error 40)"
  | zeroByte => "file name contained an unexpected NUL byte"
  | notUtf8 => "stream did not contain valid UTF-8"

/-- What a command can see. -/
structure Workspace where
  /-- The files, from the root of the disk. -/
  disk : FileTree
  /-- The names that lead from the root to the working directory. -/
  directory : List String
  /-- The bytes of standard input. -/
  input : List UInt8
deriving Repr, Inhabited

namespace Workspace

/-- The most links that one path may lead through. -/
def maxLinks : Nat := 40

/-- Follows pieces of a path from the directory `here`, whose names stand last one first. -/
def follow (disk : FileTree) (links : Nat) (here : List String) (pieces : List (List Char)) :
    Except FileFault (List String) :=
  match pieces with
  | [] => .ok here
  | piece :: rest =>
    match disk.descend? here.reverse with
    | some (.directory entries) =>
      if piece = [] ∨ piece = ['.'] then follow disk links here rest
      else if piece = ['.', '.'] then follow disk links here.tail rest
      else
        match entries.lookup (String.ofList piece) with
        | none => .error .missing
        | some (.link target) =>
          match links with
          | 0 => .error .tooManyLinks
          | links + 1 =>
            let start := if Path.isAbsolute target then [] else here
            follow disk links start (Path.pieces target ++ rest)
        | some _ => follow disk links (String.ofList piece :: here) rest
    | _ => .error .notDirectory
termination_by (links, pieces.length)

/-- The names that lead from the root to where a path leads. -/
def locate (space : Workspace) (path : String) : Except FileFault (List String) :=
  if path = "" then .error .missing
  else if path.toList.contains (Char.ofNat 0) then .error .zeroByte
  else
    let start := if Path.isAbsolute path then [] else space.directory.reverse
    (follow space.disk maxLinks start (Path.pieces path)).map List.reverse

/-- The names that a path leads to, if it leads anywhere. -/
def canonical? (space : Workspace) (path : String) : Option (List String) :=
  (space.locate path).toOption

/-- What a path leads to. -/
def node? (space : Workspace) (path : String) : Option FileTree :=
  (space.canonical? path).bind space.disk.descend?

/-- Whether a path leads to anything. -/
def isPresent (space : Workspace) (path : String) : Bool := (space.node? path).isSome

/-- Whether a path leads to a directory. -/
def isDirectory (space : Workspace) (path : String) : Bool :=
  (space.node? path).any FileTree.isDirectory

/-- The content of the file that a path leads to. -/
def read (space : Workspace) (path : String) : Except FileFault (List UInt8) := do
  let names ← space.locate path
  match space.disk.descend? names with
  | some (.file content) => .ok content
  | some (.directory _) => .error .isDirectory
  | _ => .error .missing

/-- The content of a file as text. -/
def readText (space : Workspace) (path : String) : Except FileFault String := do
  match Text.decodeUtf8 (← space.read path) with
  | .ok text => .ok (String.ofList text)
  | .error _ => .error .notUtf8

/-- Standard input as text. -/
def inputText (space : Workspace) : Except FileFault String :=
  match Text.decodeUtf8 space.input with
  | .ok text => .ok (String.ofList text)
  | .error _ => .error .notUtf8

end Workspace

end CodeDelta
