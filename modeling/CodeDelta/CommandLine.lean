import CodeDelta.CommandLine.Arguments
import CodeDelta.Settings
import CodeDelta.Registry.Builtin
import CodeDelta.Render.Report
import CodeDelta.Render.Element
import CodeDelta.Render.Structure
import CodeDelta.Resolve.Locator

/-!
# The command line

From arguments to what is printed and the status that a run ends with. The settings of the working
directory hold unless an option says otherwise. A run that fails prints one line to standard error
and nothing else.
-/

namespace CodeDelta.CommandLine

/-- What a run leaves behind. -/
structure Outcome where
  /-- The status: zero for success, one for failure, two for arguments that make no sense. -/
  status : Nat
  /-- The text on standard output. -/
  output : String
  /-- The text on standard error. -/
  errors : String
deriving DecidableEq, Repr, Inhabited

/-- The name of the program. -/
def programName : String := "semdiff"

/-- The version of the program. -/
def version : String := "0.1.0"

/-- How the program is used. -/
def usage : String :=
  Render.unlines
    ["Usage: semdiff [OPTIONS] <COMMAND>",
     "",
     "Commands:",
     "  diff <LOCATOR>  Compare two resources given as '<left>:<right>[/element]'",
     "  show <LOCATOR>  Print the structure a single locator resolves to",
     "",
     "Options:",
     "  -e, --element <ELEMENT>  Compare only this element (diff)",
     "      --format <FORMAT>    table, json or grep",
     "      --compact            Minified JSON and borderless tables",
     "  -v, --verbose            Enable verbose output",
     "  -q, --quiet              Suppress all logging except errors",
     "  -h, --help               Print help",
     "  -V, --version            Print version"]

/-- What the reading of the arguments leaves behind when it ends early. -/
def Stop.outcome : Stop → Outcome
  | misuse => ⟨2, "", usage⟩
  | help => ⟨0, usage, ""⟩
  | .version none => ⟨0, s!"{programName} {CommandLine.version}\n", ""⟩
  | .version (some command) =>
    ⟨0, s!"{programName}-{command.name} {CommandLine.version}\n", ""⟩

/-- What is printed for a request. -/
def Request.answer (request : Request) (context : Resolve.Context) (shown : Render.Options) :
    Git.Session String := do
  match request.command with
  | .compare =>
    match ← context.compare request.locator request.element with
    | .whole report => return report.render shown
    | .element report => return report.render shown
  | .display => return (← context.locator (.parse request.locator)).render shown

/-- Runs the program in a workspace; `terminal` tells whether output goes to a terminal. -/
def run (space : Workspace) (terminal : Bool) (arguments : List String) : Git.Dialogue Outcome :=
  match Request.read arguments with
  | .error stop => .done stop.outcome
  | .ok request => do
    let settings := Settings.load space
    let context : Resolve.Context := ⟨.builtin, settings.resolution, space⟩
    let shown : Render.Options :=
      ⟨request.format.getD settings.outputFormat, settings.color.getD terminal, request.compact⟩
    match ← (request.answer context shown).run with
    | .ok text => return ⟨0, Render.printed text, ""⟩
    | .error failure => return ⟨1, "", failure.describe ++ "\n"⟩

end CodeDelta.CommandLine
