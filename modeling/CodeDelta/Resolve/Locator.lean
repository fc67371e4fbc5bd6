import CodeDelta.Locator.Compound
import CodeDelta.Locator.Revision
import CodeDelta.Resolve.Directory
import CodeDelta.Resolve.History
import CodeDelta.Diff.Structures
import CodeDelta.Diff.Elements

/-!
# Resolving locators

A file locator leads to a file or a directory of the workspace, a revision's to a file or directory
of a repository, and every other one to what its scheme's adapter loads. The two sides of a compound
locator are resolved left before right and then compared, as wholes or in one element.
-/

namespace CodeDelta.Resolve

/-- Where locators are resolved. -/
structure Context where
  /-- The analyzers and adapters. -/
  registry : Registry
  /-- The options. -/
  options : Options
  /-- The files and the standard input. -/
  space : Workspace

namespace Context

/-- The structure of a file. -/
def file (context : Context) (path : String) : Except Failure Structure :=
  match context.registry.analyzerFor? context.space path with
  | none => .error (.noAnalyzer path)
  | some analyzer =>
    match context.space.read path with
    | .ok content => analyzer.analyze path content
    | .error fault => .error (.io fault.message)

/-- The structure of a directory. -/
def directory (context : Context) (path : String) : Structure :=
  Resolve.directory context.registry context.options context.space path

/-- The structure of a path: a file or a directory. -/
def path (context : Context) (path : String) : Except Failure Structure :=
  if !context.space.isPresent path then .error (.pathNotFound path)
  else if context.space.isDirectory path then .ok (context.directory path)
  else context.file path

/-- The structure that the adapter of a scheme loads. -/
def adapted (context : Context) (scheme resource : String) : Except Failure Structure :=
  match context.registry.factory? scheme with
  | none => .error (.unsupportedScheme scheme)
  | some factory => do
    let adapter ← factory.create (if factory.acceptsResource then some resource else none)
    adapter context.space

/-- The structure of a path at a revision. -/
def recorded (context : Context) (revision path : String) : Git.Session Structure :=
  Resolve.recorded context.registry context.options context.space revision path

/-- The structure that a locator leads to. -/
def locator (context : Context) (locator : Locator) : Git.Session Structure :=
  if locator.scheme = Locator.fileScheme then .ofExcept (context.path locator.resource)
  else if locator.scheme = RevisionAddress.scheme then
    match RevisionAddress.parse locator.resource with
    | .error fault => throw (.ofFault fault)
    | .ok address => context.recorded address.revision address.path
  else .ofExcept (context.adapted locator.scheme locator.resource)

/-- Reads a compound locator; a path exists when the workspace has it. -/
def compound (context : Context) (text : String) : Except Failure Locator.Compound :=
  (Locator.Compound.parse text context.space.isPresent).mapError .ofFault

end Context

/-- What a comparison is told as. -/
inductive Comparison where
  /-- Of two structures. -/
  | whole (report : Report)
  /-- Of one element. -/
  | element (report : ElementReport)

/-- Compares the two sides of a compound locator, in one element when one is named. -/
def Context.compare (context : Context) (text : String) (element : Option String) :
    Git.Session Comparison := do
  let compound ← .ofExcept (context.compound text)
  let left ← context.locator compound.left
  let right ← context.locator compound.right
  let leftUri := compound.left.display
  let rightUri := compound.right.display
  match element.or compound.element with
  | some name => return .element ⟨leftUri, rightUri, left.diffElement right name⟩
  | none => return .whole (.of (.of leftUri left) (.of rightUri right) (left.diff right))

end CodeDelta.Resolve
