import CodeDelta.Element

/-!
# Structures

A structure is the summary of one resource: its functions, classes and imports, each with lines.
A directory's structure gathers those of its files; every element then carries the path of the file
it came from.
-/

namespace CodeDelta

/-- What a structure describes. -/
inductive Structure.Kind where
  | file
  | directory
  | other
deriving DecidableEq, Repr, Inhabited

/-- The word that stands for a kind in documents. -/
def Structure.Kind.word : Structure.Kind → String
  | .file => "file"
  | .directory => "directory"
  | .other => "other"

/-- The kind that a word stands for; an unknown word stands for `other`. -/
def Structure.Kind.ofWord (text : String) : Structure.Kind :=
  if text = "file" then .file else if text = "directory" then .directory else .other

/-- The summary of one resource. -/
structure Structure where
  /-- What is described. -/
  kind : Structure.Kind
  /-- The resource as its caller named it. -/
  path : Option String
  /-- The language of a single file. -/
  language : Option String
  /-- The number of files gathered. -/
  fileCount : Option Nat
  /-- The number of files that could not be read as programs. -/
  skippedFiles : Nat
  /-- The functions. -/
  functions : List Element
  /-- The classes. -/
  classes : List Element
  /-- The imports. -/
  imports : List Element
deriving DecidableEq, Repr, Inhabited

namespace Structure

/-- The structure of which nothing is known. -/
def blank : Structure := ⟨.file, none, none, none, 0, [], [], []⟩

/-- A file's structure before its elements are known. -/
def ofFile (path : String) : Structure := { blank with path := some path }

/-- A directory's structure before its files are gathered. -/
def ofDirectory (path : String) : Structure :=
  { blank with kind := .directory, path := some path, fileCount := some 0 }

/-- The elements of a category. -/
def elements (category : Category) (structure_ : Structure) : List Element :=
  match category with
  | .function => structure_.functions
  | .classDef => structure_.classes
  | .importDecl => structure_.imports

/-- The structure with an element added at the end of a category. -/
def push (category : Category) (element : Element) (structure_ : Structure) : Structure :=
  match category with
  | .function => { structure_ with functions := structure_.functions ++ [element] }
  | .classDef => { structure_ with classes := structure_.classes ++ [element] }
  | .importDecl => { structure_ with imports := structure_.imports ++ [element] }

/-- The number of elements, methods not counted. -/
def elementCount (structure_ : Structure) : Nat :=
  structure_.functions.length + structure_.classes.length + structure_.imports.length

/-- Whether some element names the file it came from. -/
def isFileTagged (structure_ : Structure) : Bool :=
  Category.all.any fun category =>
    (structure_.elements category).any fun element => element.file.isSome

/-- Gathers one file's structure: its elements follow those already there and carry its path. -/
def absorb (whole : Structure) (path : String) (part : Structure) : Structure :=
  { whole with
    functions := whole.functions ++ part.functions.map (Element.inFile path)
    classes := whole.classes ++ part.classes.map (Element.inFile path)
    imports := whole.imports ++ part.imports.map (Element.inFile path)
    fileCount := some (whole.fileCount.getD 0 + 1) }

/-- Gathers the outcome of reading one file; a failure is only counted. -/
def absorbOutcome (whole : Structure) (path : String) : Except ε Structure → Structure
  | .ok part => whole.absorb path part
  | .error _ => { whole with skippedFiles := whole.skippedFiles + 1 }

/-- The first element of that name: a function, else a class, else a method of some class, which
counts as a function. -/
def find? (structure_ : Structure) (name : String) : Option (Category × Element) :=
  match structure_.functions.find? fun element => element.name == name with
  | some element => some (.function, element)
  | none =>
    match structure_.classes.find? fun element => element.name == name with
    | some element => some (.classDef, element)
    | none =>
      (structure_.classes.findSome? fun owner => owner.findMethod? name).map fun method =>
        (.function, method)

end Structure

end CodeDelta
