import CodeDelta.Registry.Basic
import CodeDelta.Document.Decode
import CodeDelta.Outline

/-!
# The analyzers and adapters at hand

Python and Rust files are analyzed. A saved structure is loaded from a file by `json://` and from
standard input by `stdin://`; one that was saved without a path is given the file's.
-/

namespace CodeDelta

/-- The analyzer of Python files. -/
def Analyzer.python : Analyzer :=
  ⟨"python", ["py", "pyi", "pyw"], ["python"], Language.python.analyze⟩

/-- The analyzer of Rust files. -/
def Analyzer.rust : Analyzer := ⟨"rust", ["rs"], [], Language.rust.analyze⟩

/-- A saved structure. -/
def Structure.load (text : String) : Except Failure Structure :=
  (Json.decodeText (Structure.decode .text) text).mapError .json

/-- Loads a structure saved in a file. -/
def Adapter.snapshot (path : String) : Adapter := fun space =>
  if space.isPresent path then do
    let text ← (space.readText path).mapError fun fault => .io fault.message
    let structure_ ← Structure.load text
    return { structure_ with path := structure_.path.or (some path) }
  else .error (.pathNotFound path)

/-- Loads the structure on standard input. -/
def Adapter.standardInput : Adapter := fun space => do
  let text ← space.inputText.mapError fun fault => .io fault.message
  Structure.load text

/-- Makes the adapters of saved structures. -/
def AdapterFactory.snapshot : AdapterFactory where
  scheme := "json"
  acceptsResource := true
  create
    | some path =>
      if path = "" then .error refused else .ok (.snapshot path)
    | none => .error refused
where
  /-- A path has to be given. -/
  refused : Failure :=
    .adapter "json" "expected a snapshot path, as in json://structure.json"

/-- Makes the adapter of standard input. -/
def AdapterFactory.standardInput : AdapterFactory where
  scheme := "stdin"
  acceptsResource := false
  create _ := .ok .standardInput

/-- All that is at hand. -/
def Registry.builtin : Registry :=
  Registry.empty.addAnalyzer .python |>.addAnalyzer .rust |>.addFactory .snapshot
    |>.addFactory .standardInput

end CodeDelta
