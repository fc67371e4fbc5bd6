import CodeDelta.Text.Blank

/-!
# Options of resolution

Which directories are never entered, whether ignore files count, and which program answers for
git. Names of directories are taken without the slashes they end in, and no name is listed twice.
-/

namespace CodeDelta.Resolve

/-- The directories that are never entered unless they are asked for themselves. -/
def defaultSkipped : List String :=
  [".git", ".hg", ".svn", "node_modules", "__pycache__", ".venv", "venv", "target", "build",
    "dist", ".tox", ".pytest_cache", ".mypy_cache", ".ruff_cache"]

/-- How resources are resolved. -/
structure Options where
  /-- The names of directories that are not entered. -/
  skipped : List String
  /-- Whether ignore files count. -/
  respectIgnoreFiles : Bool
  /-- The program that answers for git. -/
  git : String
deriving DecidableEq, Repr

namespace Options

/-- The options when nothing is said. -/
def standard : Options := ⟨defaultSkipped, false, "git"⟩

instance : Inhabited Options := ⟨standard⟩

/-- A name without the slashes it ends in. -/
def trimSlashes (name : String) : String :=
  String.ofList ((name.toList.reverse.dropWhile (· == '/')).reverse)

/-- The list with a name at its end, unless it is empty or listed. -/
def addName (names : List String) (name : String) : List String :=
  let name := trimSlashes name
  if name = "" ∨ name ∈ names then names else names ++ [name]

/-- Names more directories that are not entered. -/
def skipping (options : Options) (names : List String) : Options :=
  { options with skipped := names.foldl addName options.skipped }

end Options

end CodeDelta.Resolve
