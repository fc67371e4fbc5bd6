import CodeDelta.Git.Format
import CodeDelta.Git.Query
import CodeDelta.Git.Revision
import CodeDelta.Files.Workspace

/-!
# Repositories

A repository as a value: commits, each with its parents and the files of its tree sorted by path,
and references to commits. It answers the questions that are put to git. A path names exactly one
file or directory of a tree, and with a slash at its end the entries of a directory. Where the
revision of a listing is taken for the option that gives its format, the path is taken for the
revision.
-/

namespace CodeDelta.Git

/-- What a path in a tree holds. -/
inductive TreeFile where
  /-- A regular file. -/
  | regular (executable : Bool) (content : List UInt8)
  /-- A symbolic link. -/
  | link (target : String)
  /-- A commit of another repository. -/
  | submodule
deriving DecidableEq, Repr

namespace TreeFile

/-- The mode, in octal digits. -/
def mode : TreeFile → String
  | regular executable _ => if executable then "100755" else "100644"
  | link _ => "120000"
  | submodule => "160000"

/-- The kind of object. -/
def kind : TreeFile → String
  | submodule => "commit"
  | _ => "blob"

/-- The bytes that are kept; none are kept of a submodule. -/
def content? : TreeFile → Option (List UInt8)
  | regular _ content => some content
  | link target => some (Text.encodeUtf8 target.toList)
  | submodule => none

end TreeFile

/-- A recorded state of the files. -/
structure Commit where
  /-- The commits it follows. -/
  parents : List Nat
  /-- The files, sorted by path. -/
  files : List (String × TreeFile)
deriving Repr, Inhabited

/-- Commits and the references to them. -/
structure Repository where
  /-- The names that lead from the root of the disk to the work tree. -/
  root : List String
  /-- The commits. -/
  commits : List Commit
  /-- The commits that full names refer to. -/
  references : List (String × Nat)
  /-- The full name of the branch that is checked out. -/
  head : String
deriving Repr, Inhabited

namespace Repository

/-- The full names that a short name may stand for, the first that exists counts. -/
def fullNames (name : String) : List String :=
  [name, "refs/" ++ name, "refs/tags/" ++ name, "refs/heads/" ++ name, "refs/remotes/" ++ name,
    "refs/remotes/" ++ name ++ "/HEAD"]

/-- The commit that a name refers to. -/
def named? (repository : Repository) (name : String) : Option Nat :=
  if name = "HEAD" then repository.references.lookup repository.head
  else (fullNames name).findSome? fun name => repository.references.lookup name

/-- The parent of that number, counted from one. -/
def parent? (repository : Repository) (commit number : Nat) : Option Nat :=
  if number = 0 then some commit
  else (repository.commits[commit]?).bind fun commit => commit.parents[number - 1]?

/-- The ancestor so many generations back, along first parents. -/
def ancestor? (repository : Repository) (commit : Nat) : Nat → Option Nat
  | 0 => some commit
  | generations + 1 =>
    (repository.parent? commit 1).bind fun commit => repository.ancestor? commit generations

/-- The commit that a step leads to. -/
def step? (repository : Repository) (commit : Nat) : Step → Option Nat
  | .ancestor generations => repository.ancestor? commit generations
  | .parent number => repository.parent? commit number
  | .itself => some commit

/-- The commit that an expression names. -/
def commit? (repository : Repository) (expression : String) : Option Commit := do
  let revision ← Revision.parse? expression
  let start ← repository.named? revision.name
  let commit ← revision.steps.foldlM repository.step? start
  repository.commits[commit]?

end Repository

/-- The pieces of a path in a tree, with every `..` and the piece before it dropped; nothing when
there is no piece before it. -/
def plainPieces (done : List (List Char)) : List (List Char) → Option (List (List Char))
  | [] => some done.reverse
  | piece :: rest =>
    if piece = [] ∨ piece = ['.'] then plainPieces done rest
    else if piece = ['.', '.'] then
      match done with
      | [] => none
      | _ :: done => plainPieces done rest
    else plainPieces (piece :: done) rest

/-- The plain form of a path in a tree, which ends in a slash when the path can only be a
directory; nothing when the path leaves the tree. -/
def plainPath? (path : String) : Option (List Char) :=
  let pieces := Path.pieces path
  if Path.isAbsolute path then none
  else
    (plainPieces [] pieces).map fun plain =>
      let last := pieces.getLast?.getD []
      let text := Text.joinWith '/' plain
      if plain ≠ [] ∧ (last = [] ∨ last = ['.'] ∨ last = ['.', '.']) then text ++ ['/'] else text

namespace Commit

/-- A file of the tree. -/
def file? (commit : Commit) (path : List Char) : Option TreeFile :=
  commit.files.lookup (String.ofList path)

/-- The files that stand below a directory, given with its slash or as an empty text. -/
def below (commit : Commit) (directory : List Char) : List (String × TreeFile) :=
  commit.files.filter fun entry => directory.isPrefixOf entry.1.toList

/-- The entry of a file. -/
def fileEntry (path : List Char) (file : TreeFile) : TreeEntry :=
  ⟨file.mode, file.kind, String.ofList path⟩

/-- The entry of a directory. -/
def directoryEntry (path : List Char) : TreeEntry := ⟨"040000", "tree", String.ofList path⟩

/-- A directory's own entries, among the files that stand below it. -/
def childEntries (directory : List Char) (files : List (String × TreeFile)) : List TreeEntry :=
  (files.map fun entry =>
    let rest := entry.1.toList.drop directory.length
    let name := rest.takeWhile (· != '/')
    if name.length = rest.length then fileEntry entry.1.toList entry.2
    else directoryEntry (directory ++ name)).eraseDups

/-- The entries that a plain path names. -/
def entriesAt (commit : Commit) (path : List Char) : List TreeEntry :=
  match path.getLast? with
  | none => childEntries [] commit.files
  -- A submodule is listed under its own name even when it is asked for as a directory.
  | some '/' =>
    match commit.file? path.dropLast with
    | some .submodule => [fileEntry path.dropLast .submodule]
    | _ => childEntries path (commit.below path)
  | some _ =>
    match commit.file? path with
    | some file => [fileEntry path file]
    | none => if (commit.below (path ++ ['/'])).isEmpty then [] else [directoryEntry path]

/-- The files that stand at or below a plain path. -/
def filesAt (commit : Commit) (path : List Char) : List (List Char) :=
  let atPath (name : List Char) (file : TreeFile) : Bool :=
    match path.getLast? with
    | none => true
    | some '/' => path.isPrefixOf name || (name == path.dropLast && file == .submodule)
    | some _ => name == path || (path ++ ['/']).isPrefixOf name
  (commit.files.filter fun entry => atPath entry.1.toList entry.2).map fun entry =>
    entry.1.toList

end Commit

/-- Lines, each ended by a zero byte. -/
def listing (lines : List (List Char)) : List UInt8 :=
  lines.flatMap fun line => Text.encodeUtf8 line ++ [0]

/-- The line of an entry in a full listing; the names of objects are not told apart. -/
def TreeEntry.line (entry : TreeEntry) : List Char :=
  (entry.mode ++ " " ++ entry.kind ++ " 0").toList ++ '\t' :: entry.path.toList

/-- A reply without complaint. -/
def Reply.success (output : List UInt8) : Reply := .ended 0 output []

/-- The reply to a question that makes no sense in the repository. -/
def Reply.failure : Reply := .ended 128 [] []

/-- The reply to arguments that are taken for an unknown option. -/
def Reply.usage : Reply := .ended 129 [] []

/-- Whether an argument would be taken for an option. -/
def isOption (argument : String) : Bool :=
  match argument.toList with
  | '-' :: _ :: _ => true
  | _ => false

namespace Repository

/-- The root of the work tree that holds a directory: where the repository's own directory still
stands, and not inside that one. -/
def topLevel? (repository : Repository) (space : Workspace) (directory : String) :
    Option (List String) := do
  let names ← space.canonical? directory
  let below ← Path.below? (names.map .named) (repository.root.map .named)
  -- Inside its own directory the repository has no work tree.
  let own ← space.disk.descend? (repository.root ++ [".git"])
  if own.isDirectory && below.head? != some (.named ".git") then some repository.root else none

/-- The reply to a question for entries in a format; an expression stands in the place of their
path, and the entries are those of the tree's root. -/
def inFormat (repository : Repository) (format : List Char) (expression : String) : Reply :=
  (repository.commit? expression).elim .failure fun commit =>
    ((commit.entriesAt []).mapM (TreeEntry.inFormat? format)).elim .failure fun lines =>
      .success (lines.flatMap fun line => line ++ [0])

/-- The reply to a question about a commit. -/
def atCommit (repository : Repository) (revision : String) (reply : Commit → Reply) : Reply :=
  if isOption revision then .usage else (repository.commit? revision).elim .failure reply

/-- The reply to a question asked in a directory. -/
def reply (repository : Repository) (space : Workspace) (directory : String) (query : Query) :
    Reply :=
  match repository.topLevel? space directory with
  | none => .failure
  | some root =>
    match query with
    | .topLevel =>
      .success (Text.encodeUtf8 ("/" ++ "/".intercalate root ++ "\n").toList)
    | .verify revision =>
      if (repository.commit? revision).isSome then .success [] else .ended 1 [] []
    | .entries revision path =>
      match Text.dropLead? "--format=".toList revision.toList with
      | some format => repository.inFormat format path
      | none =>
        repository.atCommit revision fun commit =>
          if path = "" then .failure
          else
            (plainPath? path).elim .failure fun path =>
              .success (listing ((commit.entriesAt path).map TreeEntry.line))
    | .files revision path =>
      repository.atCommit revision fun commit =>
        (plainPath? path).elim .failure fun path => .success (listing (commit.filesAt path))
    | .blob revision path =>
      repository.atCommit revision fun commit =>
        ((commit.file? path.toList).bind TreeFile.content?).elim .failure .success

end Repository

end CodeDelta.Git
