import CodeDelta.Ignore.Rules
import CodeDelta.Registry.Basic
import CodeDelta.Resolve.Options

/-!
# Directories

A directory's structure gathers those of all files below it that an analyzer takes. Directories
whose names are skipped are not entered, and neither are ignored ones when ignore files count; links
are not followed. Files come in the order of their names, directory by directory. A file that cannot
be analyzed is only counted.
-/

namespace CodeDelta.Resolve

/-- A file that was found. -/
structure Found where
  /-- The names that lead to it from where the search began. -/
  names : List String
  /-- The content. -/
  content : List UInt8
deriving DecidableEq, Repr

/-- Whether a path is left out, and the rule for what stands in a directory. -/
structure Scope where
  /-- The names that lead to the directory where the search began. -/
  base : List String
  /-- The rules in force, none when ignore files do not count. -/
  levels : Option (List Ignore.Level)

namespace Scope

/-- Whether an entry is left out. -/
def leavesOut (scope : Scope) (names : List String) (isDirectory : Bool) : Bool :=
  scope.levels.any fun levels => Ignore.isIgnored levels (scope.base ++ names) isDirectory

/-- The scope inside a directory. -/
def enter (scope : Scope) (space : Workspace) (names : List String) : Scope :=
  { scope with
    levels := scope.levels.map fun levels =>
      Ignore.Level.read space (scope.base ++ names) :: levels }

end Scope

mutual

/-- The files at or below one entry of a directory. -/
def filesOf (space : Workspace) (skipped : List String) (scope : Scope) (above : List String)
    (name : String) : FileTree → List Found
  | .link _ => []
  | .file content =>
    if scope.leavesOut (above ++ [name]) false then [] else [⟨above ++ [name], content⟩]
  | .directory entries =>
    let names := above ++ [name]
    if name ∈ skipped ∨ scope.leavesOut names true then []
    else filesIn space skipped (scope.enter space names) names entries

/-- The files below a directory with these entries. -/
def filesIn (space : Workspace) (skipped : List String) (scope : Scope) (above : List String) :
    List (String × FileTree) → List Found
  | [] => []
  | (name, node) :: rest =>
    filesOf space skipped scope above name node ++ filesIn space skipped scope above rest

end

/-- The files below a path; a file stands below itself with no names, and a path that leads nowhere
has none. -/
def filesBelow (options : Options) (space : Workspace) (path : String) : List Found :=
  match space.canonical? path with
  | none => []
  | some base =>
    match space.disk.descend? base with
    | some (.directory entries) =>
      let levels :=
        if options.respectIgnoreFiles then some (Ignore.levelsAbove space base) else none
      filesIn space options.skipped ⟨base, levels⟩ [] entries
    | some (.file content) => [⟨[], content⟩]
    | _ => []

/-- The analyzer of a file that was found below a path. -/
def Found.analyzer? (found : Found) (registry : Registry) (path : String) : Option Analyzer :=
  let extension :=
    match found.names.getLast? with
    | some name => Path.nameExtension? name
    | none => Path.extension? path
  registry.analyzerOfContent? extension (some found.content)

/-- A file in the hands of an analyzer. -/
structure Task where
  /-- The path it is analyzed as. -/
  path : String
  /-- The analyzer. -/
  analyzer : Analyzer
  /-- The content. -/
  content : List UInt8

/-- What becomes of a task. -/
def Task.outcome (task : Task) : Except Failure Structure :=
  task.analyzer.analyze task.path task.content

/-- The tasks of all files below a path that an analyzer takes, each with the file's tag. -/
def tasksBelow (registry : Registry) (options : Options) (space : Workspace) (path : String) :
    List (String × Task) :=
  (filesBelow options space path).filterMap fun found =>
    (found.analyzer? registry path).map fun analyzer =>
      let tag := "/".intercalate found.names
      (tag, ⟨if found.names.isEmpty then path else path ++ "/" ++ tag, analyzer, found.content⟩)

/-- Gathers outcomes into the structure of a directory. -/
def gather (path : String) (outcomes : List (String × Except Failure Structure)) : Structure :=
  outcomes.foldl (fun whole outcome => whole.absorbOutcome outcome.1 outcome.2)
    (.ofDirectory path)

/-- The structure of a directory. -/
def directory (registry : Registry) (options : Options) (space : Workspace) (path : String) :
    Structure :=
  gather path
    ((tasksBelow registry options space path).map fun task => (task.1, task.2.outcome))

end CodeDelta.Resolve
