import CodeDelta.Failure
import CodeDelta.Text.Utf8
import CodeDelta.Text.Blank

/-!
# Questions to git

The five questions that are put to git, each with the arguments of its command line, and dialogues:
programs that may ask and go on with the reply. A dialogue does not say how a question is answered,
so what it asks can be stated for every way of answering.
-/

namespace CodeDelta.Git

/-- A question. -/
inductive Query where
  /-- The root of the work tree. -/
  | topLevel
  /-- Whether an expression names a commit. -/
  | verify (revision : String)
  /-- The entries of a commit's tree that a path names. -/
  | entries (revision path : String)
  /-- The files of a commit's tree below a path, or all when the path is empty. -/
  | files (revision path : String)
  /-- The content of a file in a commit's tree. -/
  | blob (revision path : String)
deriving DecidableEq, Repr

namespace Query

/-- The arguments of the command line. Paths stand behind `--`. -/
def arguments : Query → List String
  | topLevel => ["rev-parse", "--show-toplevel"]
  | verify revision => ["rev-parse", "--verify", "--quiet", revision ++ "^\x7bcommit\x7d"]
  | entries revision path => ["ls-tree", "-z", "--full-tree", revision, "--", path]
  | files revision path =>
    ["ls-tree", "-r", "-z", "--full-tree", "--name-only", revision] ++
      if path = "" then [] else ["--", path]
  | blob revision path => ["cat-file", "blob", revision ++ ":" ++ path]

/-- The command line as it is reported, without the directory it runs in. -/
def commandLine (program : String) (query : Query) : String :=
  " ".intercalate (program :: query.arguments)

/-- Why no program can be asked: no argument may hold a zero byte. -/
def startFault? (query : Query) : Option String :=
  if query.arguments.any fun argument => argument.toList.contains (Char.ofNat 0) then
    some "nul byte found in provided data"
  else none

end Query

/-- What became of a command. -/
inductive Reply where
  /-- The program could not be started. -/
  | notStarted (reason : String)
  /-- The program ended with a status and wrote these bytes. -/
  | ended (status : Nat) (output errors : List UInt8)
deriving DecidableEq, Repr, Inhabited

/-- A program that may ask questions, each in a directory. -/
inductive Dialogue (α : Type) where
  /-- The program's result. -/
  | done (result : α)
  /-- A question, and how the program goes on with its reply. -/
  | ask (program directory : String) (query : Query) (next : Reply → Dialogue α)

namespace Dialogue

/-- One program after another. -/
def bind : Dialogue α → (α → Dialogue β) → Dialogue β
  | done result, next => next result
  | ask program directory query rest, next =>
    ask program directory query fun reply => (rest reply).bind next

instance : Monad Dialogue where
  pure := done
  bind := bind

/-- Runs a program whose questions are answered by a function. -/
def run (answer : String → String → Query → Reply) : Dialogue α → α
  | done result => result
  | ask program directory query next => (next (answer program directory query)).run answer

/-- The questions that a program asks when they are answered by a function, with the replies. -/
def trace (answer : String → String → Query → Reply) : Dialogue α → List (Query × Reply)
  | done _ => []
  | ask program directory query next =>
    let reply := answer program directory query
    (query, reply) :: (next reply).trace answer

end Dialogue

/-- A program that may ask questions and may fail. -/
abbrev Session := ExceptT Failure Dialogue

/-- A finished outcome. -/
def Session.ofExcept (outcome : Except Failure α) : Session α := .mk (.done outcome)

/-- Asks a question. -/
def Session.ask (program directory : String) (query : Query) : Session Reply :=
  .mk (.ask program directory query fun reply => .done (.ok reply))

/-- The failure of a command that was not started. -/
def notStartedFailure (program : String) (query : Query) (reason : String) : Failure :=
  .command (query.commandLine program) "not started" reason

/-- The failure of a command that ended with a status. -/
def statusFailure (program : String) (query : Query) (status : Nat) (errors : List UInt8) :
    Failure :=
  .command (query.commandLine program) s!"exit status: {status}"
    (String.ofList (Text.trim (Text.decodeLossy errors)))

end CodeDelta.Git
