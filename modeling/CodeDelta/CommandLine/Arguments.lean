import CodeDelta.Render.Style

/-!
# Arguments

The words of a command line. Options that count for every command may stand before or after the
command's name, those behind it win, and on each side of it every option may be given once. The
arguments are read from left to right: the first that makes no sense ends the reading, and so does
the first that asks for the version or for help.
-/

namespace CodeDelta.CommandLine

/-- The commands. -/
inductive Command where
  /-- Compares two resources. -/
  | compare
  /-- Prints the structure of a resource. -/
  | display
deriving DecidableEq, Repr

namespace Command

/-- The name of a command. -/
def name : Command → String
  | compare => "diff"
  | display => "show"

/-- The command that a word names; one has a short name too. -/
def ofWord? : String → Option Command
  | "diff" | "d" => some compare
  | "show" => some display
  | _ => none

end Command

/-- The options without a value. -/
inductive Switch where
  | verbose
  | quiet
  | compact
  | version
  | help
deriving DecidableEq, Repr

namespace Switch

/-- The option of a long name. -/
def ofName? : String → Option Switch
  | "verbose" => some verbose
  | "quiet" => some quiet
  | "compact" => some compact
  | "version" => some version
  | "help" => some help
  | _ => none

/-- The option of a letter. -/
def ofLetter? : Char → Option Switch
  | 'v' => some verbose
  | 'q' => some quiet
  | 'V' => some version
  | 'h' => some help
  | _ => none

end Switch

/-- The options with a value. -/
inductive Setting where
  /-- The format of output. -/
  | format
  /-- The element that is compared. -/
  | element
deriving DecidableEq, Repr

namespace Setting

/-- The option of a long name that a command takes. -/
def ofName? (command : Option Command) : String → Option Setting
  | "format" => some format
  | "element" => if command = some .compare then some element else none
  | _ => none

/-- The option of a letter that a command takes. -/
def ofLetter? (command : Option Command) : Char → Option Setting
  | 'e' => if command = some .compare then some element else none
  | _ => none

end Setting

/-- What an argument looks like. -/
inductive Shape where
  /-- `--`, behind which there are no options. -/
  | escape
  /-- `--name` or `--name=value`. -/
  | long (name : String) (value : Option String)
  /-- A dash and letters. -/
  | short (letters : List Char)
  /-- Anything else, also a dash alone. -/
  | word
deriving DecidableEq, Repr

/-- The shape of an argument. -/
def Shape.of (argument : String) : Shape :=
  match argument.toList with
  | ['-', '-'] => .escape
  | '-' :: '-' :: rest =>
    match Text.splitOnChar '=' rest with
    | [] | [_] => .long (String.ofList rest) none
    | name :: _ => .long (String.ofList name) (some (String.ofList (rest.drop (name.length + 1))))
  | '-' :: c :: rest => .short (c :: rest)
  | _ => .word

/-- Why the reading of a command line ends before its end. -/
inductive Stop where
  /-- The arguments make no sense. -/
  | misuse
  /-- The version is asked for. -/
  | version (command : Option Command)
  /-- Help is asked for. -/
  | help
deriving DecidableEq, Repr

/-- What the arguments on one side of the command's name say. -/
structure Given where
  verbose : Bool := false
  quiet : Bool := false
  compact : Bool := false
  format : Option Render.Format := none
  element : Option String := none
  locator : Option String := none
  /-- A value that stands apart from its option, and is looked at only after the next argument. -/
  unsettled : Option (Setting × String) := none
deriving DecidableEq, Repr

namespace Given

/-- Takes a switch. -/
def switch (given : Given) (command : Option Command) : Switch → Except Stop Given
  | .verbose => if given.verbose then .error .misuse else .ok { given with verbose := true }
  | .quiet => if given.quiet then .error .misuse else .ok { given with quiet := true }
  | .compact => if given.compact then .error .misuse else .ok { given with compact := true }
  | .version => .error (.version command)
  | .help => .error .help

/-- Takes an option's value. -/
def set (given : Given) (setting : Setting) (value : String) : Except Stop Given :=
  match setting with
  | .format =>
    match given.format, Render.Format.ofExactWord? value with
    | none, some format => .ok { given with format := some format }
    | _, _ => .error .misuse
  | .element =>
    if given.element.isSome then .error .misuse else .ok { given with element := some value }

/-- Takes the value that is not settled yet. -/
def settle (given : Given) : Except Stop Given :=
  match given.unsettled with
  | none => .ok given
  | some (setting, value) => { given with unsettled := none }.set setting value

/-- Takes a locator, of which a command has one. -/
def place (command : Option Command) (given : Given) (argument : String) : Except Stop Given :=
  if command = none ∨ given.locator.isSome then .error .misuse
  else .ok { given with locator := some argument }

/-- Takes the letters of one argument. The last one may be an option that waits for its value. -/
def letters (command : Option Command) (given : Given) :
    List Char → Except Stop (Given × Option Setting)
  | [] => .ok (given, none)
  | letter :: rest =>
    match Switch.ofLetter? letter, Setting.ofLetter? command letter, rest with
    | some switch, _, _ => do (← given.switch command switch).letters command rest
    | none, some setting, [] => .ok (given, some setting)
    | none, some setting, c :: value =>
      let value := if c = '=' then value else c :: value
      (given.set setting (String.ofList value)).map fun given => (given, none)
    | none, none, _ => .error .misuse

/-- Takes one argument behind which options may follow. -/
def argument (command : Option Command) (given : Given) (text : String) :
    Except Stop (Given × Option Setting) := do
  let given ← given.settle
  match Shape.of text with
  | .escape | .word => return (← given.place command text, none)
  | .short letters => given.letters command letters
  | .long name value =>
    match Switch.ofName? name, Setting.ofName? command name, value with
    | some switch, _, none => return (← given.switch command switch, none)
    | none, some setting, some value => return (← given.set setting value, none)
    | none, some setting, none => return (given, some setting)
    | _, _, _ => .error .misuse

/-- Reads the arguments on one side of the command's name: up to the name, which is left, or to the
end. -/
def read (command : Option Command) (given : Given) :
    List String → Except Stop (Given × List String)
  | [] => .ok (given, [])
  | text :: rest =>
    if command = none ∧ (text = "help" ∨ (Command.ofWord? text).isSome) then
      .ok (given, text :: rest)
    else if Shape.of text = .escape then do
      -- From here on there are only words.
      let given ← given.settle
      return (← rest.foldlM (place command) given, [])
    else
      match given.argument command text, rest with
      | .error stop, _ => .error stop
      | .ok (given, none), rest => given.read command rest
      | .ok (_, some _), [] => .error .misuse
      | .ok (given, some setting), value :: rest =>
        if Shape.of value = .word then
          { given with unsettled := some (setting, value) }.read command rest
        else .error .misuse

end Given

/-- What a command line asks for. -/
structure Request where
  /-- The command. -/
  command : Command
  /-- The locator that the command is about. -/
  locator : String
  /-- The element that is compared. -/
  element : Option String
  /-- The format of output. -/
  format : Option Render.Format
  /-- Whether output is short. -/
  compact : Bool
deriving DecidableEq, Repr

/-- Reads what stands behind the word `help`: at most the name of a command. -/
def readHelp : List String → Stop
  | [] => .help
  | [name] => if name = "help" ∨ (Command.ofWord? name).isSome then .help else .misuse
  | _ => .misuse

/-- Reads a command line. -/
def Request.read (arguments : List String) : Except Stop Request := do
  let (before, rest) ← Given.read none {} arguments
  match rest with
  | [] => .error .misuse
  | name :: rest =>
    match Command.ofWord? name with
    | none => .error (readHelp rest)
    | some command =>
      let (behind, _) ← Given.read (some command) {} rest
      let behind ← behind.settle
      let before ← before.settle
      match behind.locator with
      | none => .error .misuse
      | some locator =>
        return ⟨command, locator, behind.element, behind.format.or before.format,
          before.compact || behind.compact⟩

end CodeDelta.CommandLine
