import CodeDelta.Json.Basic

/-!
# File trees

The files of a disk as a value: a directory holds its entries sorted by name, a symbolic link the
path it leads to.
-/

namespace CodeDelta

/-- What a name in a directory stands for. -/
inductive FileTree where
  /-- A regular file. -/
  | file (content : List UInt8)
  /-- A symbolic link. -/
  | link (target : String)
  /-- A directory. -/
  | directory (entries : List (String × FileTree))
deriving Repr, Inhabited

namespace FileTree

/-- A directory without entries. -/
def empty : FileTree := directory []

/-- The entries of a directory, none of anything else. -/
def entries : FileTree → List (String × FileTree)
  | directory entries => entries
  | _ => []

/-- Whether this is a directory. -/
def isDirectory : FileTree → Bool
  | directory _ => true
  | _ => false

/-- The entry of that name. -/
def child? (tree : FileTree) (name : String) : Option FileTree := tree.entries.lookup name

/-- What names lead to, without following links. -/
def descend? (tree : FileTree) : List String → Option FileTree
  | [] => some tree
  | name :: rest => (tree.child? name).bind fun child => child.descend? rest

/-- Puts a node at the end of some names. Missing directories are made, and whatever else stands
in the way is replaced by one. -/
def insert (tree : FileTree) : List String → FileTree → FileTree
  | [], node => node
  | name :: rest, node =>
    directory
      (Json.insertMember name (((tree.child? name).getD empty).insert rest node) tree.entries)

/-- Makes sure that a directory is there. -/
def insertDirectory (tree : FileTree) (names : List String) : FileTree :=
  match tree.descend? names with
  | some (directory _) => tree
  | _ => tree.insert names empty

/-- Removes what names lead to. -/
def erase (tree : FileTree) : List String → FileTree
  | [] => empty
  | [name] => directory (tree.entries.filter fun entry => entry.1 != name)
  | name :: rest =>
    match tree.child? name with
    | some child => directory (Json.insertMember name (child.erase rest) tree.entries)
    | none => tree

end FileTree

end CodeDelta
