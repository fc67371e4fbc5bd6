import CodeDelta.Git.Checkout
import CodeDelta.Resolve.Directory

/-!
# Recorded revisions

A path at a revision is a file or a directory of the revision's tree. A file's content is written to
a temporary file with the extension of the recorded one, analyzed as a live file of that name would
be, and named `path@revision` in the outcome. A directory's structure gathers those of all files
below it, in the order of git's listing; the directories that a live walk would not enter are left
out, and a file that cannot be read or analyzed is only counted. That temporary files can be created
and written is assumed of the system (`materialize`).
-/

namespace CodeDelta.Resolve

/-- Whether a directory on the way to a file is skipped; the file's own name does not count. -/
def inSkipped (skipped : List String) (path : String) : Bool :=
  ((Path.pieces path).dropLast.map String.ofList).any fun name => skipped.contains name

/-- A failed analysis, said of the revision's file. -/
def relabel (label : String) : Failure → Failure
  | .analysis _ message => .analysis label message
  | failure => failure

/-- The path of the temporary file that holds a recorded file's content while it is analyzed. It has
the recorded file's extension; the part before it is drawn at random and shown nowhere. -/
def temporaryPath (path : String) : String :=
  "/tmp/semdiff-XXXXXX" ++ (Path.extension? path).elim "" fun extension => "." ++ extension

/-- The temporary file of a recorded file, or why there is none. The assumption on temporary files:
the system creates and writes each of them, so this never fails. -/
def materialize (path : String) : Except Failure String := .ok (temporaryPath path)

/-- The task of a recorded file with some content, or why its temporary file is not made; nothing
when no analyzer takes it. -/
def recordedTask? (registry : Registry) (path : String) (content : List UInt8) :
    Option (Except Failure Task) :=
  match materialize path with
  | .error failure => some (.error failure)
  | .ok temporary =>
    (registry.analyzerOfContent? (Path.extension? temporary) (some content)).map fun analyzer =>
      .ok ⟨temporary, analyzer, content⟩

/-- What becomes of the task of a recorded file. -/
def Task.recordedOutcome (task : Task) (label : String) : Except Failure Structure :=
  task.outcome.mapError (relabel label)

/-- Whether a file has an extension that no analyzer takes, so that its content need not be seen. -/
def isForeign (registry : Registry) (path : String) : Bool :=
  (Path.extension? path).any fun extension => (registry.analyzerOfExtension? extension).isNone

/-- A path as it was at a revision. -/
def labelAt (path revision : String) : String := path ++ "@" ++ revision

/-- A recorded file that is to be analyzed. -/
structure RecordedFile where
  /-- The path below the directory that was asked for. -/
  tag : String
  /-- The name in failures. -/
  label : String
  /-- The task, or why the file is not read. -/
  task : Except Failure Task

/-- What becomes of a recorded file. -/
def RecordedFile.outcome (file : RecordedFile) : Except Failure Structure :=
  file.task.bind fun task => task.recordedOutcome file.label

/-- The recorded files that are to be analyzed, one after another: those outside skipped directories
that an analyzer takes, and those that cannot be read. -/
def recordedFiles (registry : Registry) (options : Options) (checkout : Git.Checkout)
    (revision lead : String) : List String → Git.Session (List RecordedFile)
  | [] => return []
  | path :: rest => do
    let tag :=
      ((Text.dropLead? lead.toList path.toList).map String.ofList).getD path
    if inSkipped options.skipped tag || isForeign registry path then
      recordedFiles registry options checkout revision lead rest
    else
      let content ← observe (checkout.blob revision path)
      let task : Option (Except Failure Task) :=
        match content with
        | .ok content => recordedTask? registry path content
        | .error failure => some (.error failure)
      let file := task.map fun task => ⟨tag, labelAt path revision, task⟩
      return file.toList ++ (← recordedFiles registry options checkout revision lead rest)
where
  /-- The outcome of a program that may fail, as a value. -/
  observe {α : Type} (session : Git.Session α) : Git.Session (Except Failure α) :=
    .mk (session.run.bind fun outcome => .done (.ok outcome))

/-- What the paths of files below a directory start with; the root's is empty. -/
def leadOf (directory : String) : String := if directory = "" then "" else directory ++ "/"

/-- The recorded files below a directory that are to be analyzed. -/
def recordedBelow (registry : Registry) (options : Options) (checkout : Git.Checkout)
    (revision directory : String) : Git.Session (List RecordedFile) := do
  recordedFiles registry options checkout revision (leadOf directory)
    (← checkout.files revision directory)

/-- The structure of a directory at a revision; an empty path is the root. -/
def recordedDirectory (registry : Registry) (options : Options) (checkout : Git.Checkout)
    (revision directory label : String) : Git.Session Structure := do
  let files ← recordedBelow registry options checkout revision directory
  return gather label (files.map fun file => (file.tag, file.outcome))

/-- The structure of a file at a revision. -/
def recordedFile (registry : Registry) (checkout : Git.Checkout) (revision path label : String) :
    Git.Session Structure := do
  match recordedTask? registry path (← checkout.blob revision path) with
  | none => throw (.noAnalyzer label)
  | some task =>
    let structure_ ← Git.Session.ofExcept (task.bind fun task => task.recordedOutcome label)
    return { structure_ with path := some label }

/-- The structure of a path at a revision. -/
def recorded (registry : Registry) (options : Options) (space : Workspace)
    (revision path : String) : Git.Session Structure := do
  let checkout ← Git.Checkout.discover options.git space path
  checkout.verify revision
  let label := labelAt path revision
  let inside := checkout.relative space path
  if inside = "" then recordedDirectory registry options checkout revision "" label
  else
    match ← checkout.entries revision inside with
    | [] => throw (.pathNotFoundAtRevision inside revision)
    | [entry] =>
      if entry.isBlob then recordedFile registry checkout revision entry.path label
      else recordedDirectory registry options checkout revision inside label
    | _ => recordedDirectory registry options checkout revision inside label

end CodeDelta.Resolve
