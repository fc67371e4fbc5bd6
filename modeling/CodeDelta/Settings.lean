import CodeDelta.Settings.Toml.Document
import CodeDelta.Files.Workspace
import CodeDelta.Resolve.Options
import CodeDelta.Render.Style

/-!
# Settings

What a working directory's settings file says about resolution and output. Every setting may be
missing, and so may the file. A file with a fault anywhere says nothing at all: no part of it is
used.
-/

namespace CodeDelta

/-- The settings of a working directory. -/
structure Settings where
  /-- More names of directories that are not entered. -/
  skipped : List String
  /-- Whether ignore files count. -/
  respectIgnoreFiles : Option Bool
  /-- The program that answers for git. -/
  git : Option String
  /-- The word for the format of output. -/
  format : Option String
  /-- Whether output is coloured. -/
  color : Option Bool
deriving DecidableEq, Repr, Inhabited

namespace Settings

/-- The name of the settings file. -/
def fileName : String := ".semdiffrc.toml"

/-- Nothing is said. -/
def unset : Settings := ⟨[], none, none, none, none⟩

/-- The values of some fields: by name in a table, by position in an array. A time has none of
them, and nothing else has fields. -/
def fields (names : List String) : Toml.Value → Option (List (Option Toml.Value))
  | .table entries => some (names.map fun name => entries.lookup name)
  | .array items => some ((List.range names.length).map fun position => items[position]?)
  | .time => some (names.map fun _ => none)
  | .string _ | .boolean _ | .number => none

/-- Reads a string. -/
def readString : Toml.Value → Option String
  | .string text => some text
  | _ => none

/-- Reads a truth value. -/
def readBool : Toml.Value → Option Bool
  | .boolean value => some value
  | _ => none

/-- Reads a list of strings. -/
def readStrings : Toml.Value → Option (List String)
  | .array items => items.mapM readString
  | _ => none

/-- Reads a value that may be missing. -/
def readMaybe (read : Toml.Value → Option α) : Option Toml.Value → Option (Option α)
  | some value => (read value).map some
  | none => some none

/-- Adds what is said about resolution. -/
def readResolver (settings : Settings) (value : Toml.Value) : Option Settings := do
  match ← fields ["skip_dirs", "respect_gitignore", "git"] value with
  | [skipped, respect, git] =>
    return { settings with
      skipped := (← readMaybe readStrings skipped).getD []
      respectIgnoreFiles := ← readMaybe readBool respect
      git := ← readMaybe readString git }
  | _ => none

/-- Adds what is said about output. -/
def readOutput (settings : Settings) (value : Toml.Value) : Option Settings := do
  match ← fields ["format", "color"] value with
  | [format, color] =>
    return { settings with
      format := ← readMaybe readString format
      color := ← readMaybe readBool color }
  | _ => none

/-- Reads the text of a settings file. -/
def parse? (text : String) : Option Settings := do
  let entries ← Toml.parse? text
  let settings ← (entries.lookup "resolver").elim (some unset) (readResolver unset)
  (entries.lookup "output").elim (some settings) (readOutput settings)

/-- The settings of a working directory. -/
def load (space : Workspace) : Settings :=
  ((space.readText fileName).toOption.bind parse?).getD unset

/-- The options of resolution. -/
def resolution (settings : Settings) : Resolve.Options :=
  let options := Resolve.Options.standard.skipping settings.skipped
  { options with
    respectIgnoreFiles := settings.respectIgnoreFiles.getD options.respectIgnoreFiles
    git := settings.git.getD options.git }

/-- The format of output when the command line names none; a word for no format does not count. -/
def outputFormat (settings : Settings) : Render.Format :=
  (settings.format.bind Render.Format.ofWord?).getD .table

end Settings

end CodeDelta
