import CodeDelta.Complexity
import CodeDelta.Structure
import CodeDelta.Text.Blank

/-!
# The elements of a Rust file

The functions, types and imports that stand directly in a file. A type's methods come from the
blocks that implement it, whose traits are its bases. Blocks belong to the first type declared
under their name; when none is, and they hold methods, they make a type of their own that follows
the declared ones.
-/

namespace CodeDelta.Outline.Rust

/-- A type's name without its arguments: everything before the first `<`, trimmed. -/
def typeName (text : String) : String :=
  String.ofList (Text.trim (text.toList.takeWhile (· != '<')))

/-- The element of a function. -/
def function (item : SyntaxTree) : Element :=
  let name := (item.fieldText? "name").getD ""
  let modifiers := ((item.children.reverse.find? fun child =>
    child.kind == "function_modifiers").map (·.text ++ " ")).getD ""
  let types := (item.fieldText? "type_parameters").getD ""
  let parameters := (item.fieldText? "parameters").getD "()"
  let result := ((item.fieldText? "return_type").map (" -> " ++ ·)).getD ""
  let complexity := ((item.field? "body").map (SyntaxTree.complexity .rust)).getD 1
  { Element.blank with
    name := name
    signature := some (Text.collapse (modifiers ++ name ++ types ++ parameters ++ result))
    line := some item.line
    lineCount := some item.lineCount
    complexity := some complexity }

/-- Whether an item of a body is a method. -/
def isMethod (item : SyntaxTree) : Bool :=
  item.kind == "function_item" || item.kind == "function_signature_item"

/-- The methods directly in an item's body. -/
def methods (item : SyntaxTree) : List Element :=
  ((item.field? "body").map fun body =>
    (body.children.filter isMethod).map function).getD []

/-- The element of a type's declaration; a trait has bases and methods of its own. -/
def declaration (item : SyntaxTree) : Element :=
  let plain : Element :=
    { Element.blank with
      name := (item.fieldText? "name").getD ""
      line := some item.line
      lineCount := some item.lineCount }
  if item.kind = "trait_item" then
    { plain with
      bases := ((item.field? "bounds").map fun bounds =>
        bounds.namedChildren.map fun bound => typeName bound.text).getD []
      methods := methods item }
  else plain

/-- Whether an item declares a type. -/
def isDeclaration (item : SyntaxTree) : Bool :=
  item.kind == "struct_item" || item.kind == "enum_item" || item.kind == "union_item" ||
    item.kind == "trait_item"

/-- Whether an item is an import; a module is one when its body is elsewhere. -/
def isImport (item : SyntaxTree) : Bool :=
  item.kind == "use_declaration" || item.kind == "extern_crate_declaration" ||
    (item.kind == "mod_item" && (item.field? "body").isNone)

/-- What one block implements. -/
structure Implementation where
  /-- The name of the type, without arguments. -/
  type : String
  /-- The trait, when the block implements one. -/
  trait : Option String
  /-- The methods. -/
  methods : List Element
deriving DecidableEq, Repr

/-- The implementation that an item is. -/
def implementation? (item : SyntaxTree) : Option Implementation :=
  if item.kind = "impl_item" then
    (item.fieldText? "type").map fun type =>
      ⟨typeName type, (item.fieldText? "trait").map typeName, methods item⟩
  else none

/-- All implementations of a file, in order. -/
def implementations (file : SyntaxTree) : List Implementation :=
  file.children.filterMap implementation?

/-- The types that implementations name, each once, in order of first appearance; `seen` holds the
names already given. -/
def typesOf (seen : List String) : List Implementation → List String
  | [] => []
  | block :: rest =>
    if block.type ∈ seen then typesOf seen rest
    else block.type :: typesOf (block.type :: seen) rest

/-- Adds names that are not there yet. -/
def addNames (names : List String) (more : List String) : List String :=
  more.foldl (fun names name => if name ∈ names then names else names ++ [name]) names

/-- A type with what blocks implement for it. -/
def attach (blocks : List Implementation) (type : Element) : Element :=
  { type with
    bases := addNames type.bases (blocks.filterMap Implementation.trait)
    methods := type.methods ++ blocks.flatMap Implementation.methods }

/-- The declared types with their implementations: the first of a name gets all blocks of it.
`seen` holds the names already met. -/
def attachAll (blocks : List Implementation) (seen : List String) :
    List Element → List Element
  | [] => []
  | type :: rest =>
    let own := if type.name ∈ seen then [] else blocks.filter fun block => block.type == type.name
    attach own type :: attachAll blocks (type.name :: seen) rest

/-- The types that no declaration names, though blocks hold methods for them. -/
def foreignTypes (blocks : List Implementation) (declared : List String) : List Element :=
  ((typesOf [] blocks).filter fun name =>
      !declared.contains name &&
        (blocks.any fun block => block.type == name && !block.methods.isEmpty)).map fun name =>
    attach (blocks.filter fun block => block.type == name) (.named name)

/-- The classes of a file. -/
def classes (file : SyntaxTree) : List Element :=
  let declared := (file.children.filter isDeclaration).map declaration
  let blocks := implementations file
  attachAll blocks [] declared ++ foreignTypes blocks (declared.map Element.name)

/-- The structure of a file. -/
def ofFile (path : String) (file : SyntaxTree) : Structure :=
  { Structure.ofFile path with
    language := some Language.rust.name
    functions := (file.children.filter fun item => item.kind == "function_item").map function
    classes := classes file
    imports := (file.children.filter isImport).map fun item =>
      .ofImport (Text.collapse item.text) item.line }

end CodeDelta.Outline.Rust
