import CodeDelta.CommandLine

/-!
# The program

Reads the files that a run may ask for, runs it and prints what it leaves behind. Files are read
below the working directory and at the paths that the arguments mention, without the directories
that a walk never enters. No other program is started: git is reported as missing.
-/

namespace CodeDelta

/-- The names that lead from the root to a path without links. -/
def namesOf (path : String) : List String :=
  (Path.components path).filterMap Component.name?

/-- The parts of an argument that may be paths, and the paths that they may name an element of. -/
def mentionedPaths (argument : String) : List String :=
  let parts := (Text.splitOnChar ':' argument.toList).map fun part =>
    (Text.dropLead? ['/', '/'] part).getD part
  let above (part : List Char) : List Char :=
    ((Text.splitLast? '/' part).map Prod.fst).getD []
  ((parts ++ parts.map above).filter fun part => !part.isEmpty).map String.ofList

/-- Reads a file, a directory with all below it, or where a link leads to. The paths that links
lead to are added to `links`. -/
partial def readNode (links : IO.Ref (List String)) (entry : IO.FS.DirEntry) :
    IO (Option FileTree) := do
  match (← entry.path.symlinkMetadata).type with
  | .file => return some (.file (← IO.FS.readBinFile entry.path).toList)
  | .symlink => do
    let target := (← IO.FS.realPath entry.path).toString
    links.modify (target :: ·)
    return some (.link target)
  | .dir => do
    if Resolve.defaultSkipped.contains entry.fileName then return some .empty
    let mut tree : FileTree := .empty
    for child in ← entry.path.readDir do
      if let some node ← (try readNode links child catch _ => pure none) then
        tree := tree.insert [child.fileName] node
    return some tree
  | .other => return none

/-- Adds the files at and below some paths, and those that links among them lead to. -/
partial def addPaths (seen : List String) (disk : FileTree) : List String → IO FileTree
  | [] => return disk
  | path :: rest => do
    let canonical ← try pure (some (← IO.FS.realPath path)) catch _ => pure none
    match canonical with
    | none => addPaths seen disk rest
    | some canonical =>
      if seen.contains canonical.toString then addPaths seen disk rest
      else
        let links ← IO.mkRef []
        let node ← try readNode links ⟨canonical, ""⟩ catch _ => pure none
        let disk := node.elim disk (disk.insert (namesOf canonical.toString))
        addPaths (canonical.toString :: seen) disk ((← links.get) ++ rest)

/-- Adds the ignore files above a directory. -/
def addIgnoreFiles (disk : FileTree) (names : List String) : IO FileTree := do
  let mut disk := disk
  for depth in List.range names.length do
    for file in Ignore.Level.fileNames do
      let above := names.take depth ++ [file]
      try
        let content ← IO.FS.readBinFile ("/" ++ "/".intercalate above)
        disk := disk.insert above (.file content.toList)
      catch _ => pure ()
  return disk

/-- All bytes of a stream. -/
partial def readBytes (stream : IO.FS.Stream) (done : List UInt8) : IO (List UInt8) := do
  let bytes ← stream.read 65536
  if bytes.isEmpty then return done
  readBytes stream (done ++ bytes.toList)

/-- What a run with these arguments can see. -/
def loadWorkspace (arguments : List String) : IO Workspace := do
  let here := namesOf (← IO.FS.realPath ".").toString
  let disk ← addPaths [] .empty ("." :: arguments.flatMap mentionedPaths)
  let disk ← addIgnoreFiles disk here
  let wantsInput := arguments.any fun argument =>
    (mentionedPaths (Text.lowerAscii argument)).contains "stdin"
  let input ← if wantsInput then readBytes (← IO.getStdin) [] else pure []
  return ⟨disk, here, input⟩

end CodeDelta

/-- Runs the program. -/
def main (arguments : List String) : IO UInt32 := do
  let space ← CodeDelta.loadWorkspace arguments
  let output ← IO.getStdout
  let outcome := (CodeDelta.CommandLine.run space (← output.isTty) arguments).run fun _ _ _ =>
    .notStarted CodeDelta.FileFault.missing.message
  output.putStr outcome.output
  output.flush
  (← IO.getStderr).putStr outcome.errors
  return outcome.status.toUInt32
