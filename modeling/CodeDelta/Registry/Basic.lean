import CodeDelta.Failure
import CodeDelta.Structure
import CodeDelta.Files.OsPath
import CodeDelta.Files.Workspace
import CodeDelta.Registry.Interpreter

/-!
# Analyzers and adapters

A registry knows which analyzer takes a file, by its extension or by the interpreter that a file
without extension names, and which adapter has a scheme. Of two registrations of one extension,
interpreter or scheme the later one counts. Extensions and schemes are compared in small letters.
-/

namespace CodeDelta

/-- What turns the files of a language into structures. -/
structure Analyzer where
  /-- The language. -/
  name : String
  /-- The extensions of the language's files. -/
  extensions : List String
  /-- The interpreters that the language's scripts name. -/
  interpreters : List String
  /-- The structure of a file, from its path and content. -/
  analyze : String → List UInt8 → Except Failure Structure

/-- What loads a structure from somewhere. -/
abbrev Adapter := Workspace → Except Failure Structure

/-- What makes the adapters of a scheme. -/
structure AdapterFactory where
  /-- The scheme. -/
  scheme : String
  /-- Whether adapters are made from a resource. -/
  acceptsResource : Bool
  /-- The adapter of a resource. -/
  create : Option String → Except Failure Adapter

/-- Sets the entry of a key; the last one set counts. -/
def upsert (key : String) (value : α) (entries : List (String × α)) : List (String × α) :=
  (key, value) :: entries.filter fun entry => entry.1 != key

/-- The analyzers and adapters that are known. -/
structure Registry where
  /-- The analyzers, in the order of their registration. -/
  analyzers : List Analyzer
  /-- The position of the analyzer of each extension. -/
  byExtension : List (String × Nat)
  /-- The position of the analyzer of each interpreter. -/
  byInterpreter : List (String × Nat)
  /-- The adapters' factories, sorted by scheme. -/
  factories : List (String × AdapterFactory)

namespace Registry

/-- Nothing is known. -/
def empty : Registry := ⟨[], [], [], []⟩

/-- Adds an analyzer. -/
def addAnalyzer (registry : Registry) (analyzer : Analyzer) : Registry :=
  let position := registry.analyzers.length
  let enter (table : List (String × Nat)) (key : String) := upsert key position table
  { registry with
    analyzers := registry.analyzers ++ [analyzer]
    byExtension := (analyzer.extensions.map Text.lowerAscii).foldl enter registry.byExtension
    byInterpreter := analyzer.interpreters.foldl enter registry.byInterpreter }

/-- Adds an adapter's factory. -/
def addFactory (registry : Registry) (factory : AdapterFactory) : Registry :=
  { registry with
    factories :=
      Json.insertMember (Text.lowerAscii factory.scheme) factory registry.factories }

/-- The analyzer of an extension. -/
def analyzerOfExtension? (registry : Registry) (extension : String) : Option Analyzer :=
  (registry.byExtension.lookup (Text.lowerAscii extension)).bind fun position =>
    registry.analyzers[position]?

/-- The analyzer of an interpreter. -/
def analyzerOfInterpreter? (registry : Registry) (interpreter : String) : Option Analyzer :=
  (registry.byInterpreter.lookup interpreter).bind fun position => registry.analyzers[position]?

/-- The analyzer of a file's content: the extension decides, and without one the first line. -/
def analyzerOfContent? (registry : Registry) (extension : Option String)
    (content : Option (List UInt8)) : Option Analyzer :=
  match extension with
  | some extension => registry.analyzerOfExtension? extension
  | none => (content.bind Interpreter.ofContent?).bind registry.analyzerOfInterpreter?

/-- The analyzer of a file from its path and, when it can be read, its content. An extension that is
not text is none. -/
def analyzerAt? (registry : Registry) (path : OsPath) (content : Option (List UInt8)) :
    Option Analyzer :=
  registry.analyzerOfContent? (OsPath.extensionText? path) content

/-- The analyzer of the file that a path leads to. -/
def analyzerFor? (registry : Registry) (space : Workspace) (path : String) : Option Analyzer :=
  registry.analyzerAt? (.ofText path) (space.read path).toOption

/-- The factory of a scheme. -/
def factory? (registry : Registry) (scheme : String) : Option AdapterFactory :=
  registry.factories.lookup (Text.lowerAscii scheme)

/-- The names of the analyzers, in the order of their registration. -/
def analyzerNames (registry : Registry) : List String := registry.analyzers.map Analyzer.name

/-- The schemes, sorted. -/
def schemes (registry : Registry) : List String := registry.factories.map Prod.fst

end Registry

end CodeDelta
