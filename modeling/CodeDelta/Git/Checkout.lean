import CodeDelta.Git.Query
import CodeDelta.Git.Listing
import CodeDelta.Files.Workspace

/-!
# Work trees

A work tree is found from a path, which need not exist any more, by asking git in the nearest
directory that does. All other questions are asked in the root of the work tree. A revision is
checked before it is used: one that is empty or starts with a dash is never passed on.
-/

namespace CodeDelta.Git

/-- A work tree and the program that answers for it. -/
structure Checkout where
  /-- The program. -/
  program : String
  /-- The path of the root. -/
  root : String
deriving Repr

/-- The longest start of some components, given last one first, that is a directory. -/
def existingFrom (space : Workspace) : List Component → String
  | [] => "."
  | part :: rest =>
    let path := Path.ofComponents (part :: rest).reverse
    if space.isDirectory path then path else existingFrom space rest

/-- The nearest directory at or above a path. -/
def existingDirectory (space : Workspace) (path : String) : String :=
  existingFrom space (Path.absolutize space.canonical? path).reverse

namespace Checkout

/-- The work tree that holds a path. -/
def discover (program : String) (space : Workspace) (path : String) : Session Checkout := do
  match ← Session.ask program (existingDirectory space path) .topLevel with
  | .notStarted reason => throw (notStartedFailure program .topLevel reason)
  | .ended 0 output _ =>
    return ⟨program, String.ofList (Text.trim (Text.decodeLossy output))⟩
  | .ended _ _ _ => throw (.notVersionControlled path)

/-- The root's components, in their canonical form when there is one. -/
def rootComponents (space : Workspace) (checkout : Checkout) : List Component :=
  match space.canonical? checkout.root with
  | some names => .root :: names.map .named
  | none => Path.components checkout.root

/-- A path from the root of the work tree; empty for the root itself. -/
def relative (space : Workspace) (checkout : Checkout) (path : String) : String :=
  "/".intercalate
    (Path.namesBelow (Path.absolutize space.canonical? path) (checkout.rootComponents space))

/-- Asks a question, of which a program that cannot be started is the only failure. -/
def ask (checkout : Checkout) (query : Query) : Session (Nat × List UInt8 × List UInt8) := do
  match ← Session.ask checkout.program checkout.root query with
  | .notStarted reason => throw (notStartedFailure checkout.program query reason)
  | .ended status output errors => return (status, output, errors)

/-- Asks a question whose answer is the output; every status but zero is a failure. -/
def output (checkout : Checkout) (query : Query) : Session (List UInt8) := do
  match ← checkout.ask query with
  | (0, output, _) => return output
  | (status, _, errors) => throw (statusFailure checkout.program query status errors)

/-- Fails unless the expression names a commit. -/
def verify (checkout : Checkout) (revision : String) : Session Unit := do
  if revision = "" ∨ revision.toList.head? = some '-' then throw (.unknownRevision revision)
  match ← checkout.ask (.verify revision) with
  | (0, _, _) => return ()
  | _ => throw (.unknownRevision revision)

/-- The entries that a path names at a revision. -/
def entries (checkout : Checkout) (revision path : String) : Session (List TreeEntry) :=
  return parseEntries (← checkout.output (.entries revision path))

/-- The files below a path at a revision. -/
def files (checkout : Checkout) (revision path : String) : Session (List String) :=
  return parseNames (← checkout.output (.files revision path))

/-- The content of a file at a revision. -/
def blob (checkout : Checkout) (revision path : String) : Session (List UInt8) :=
  checkout.output (.blob revision path)

end Checkout

end CodeDelta.Git
