import CodeDelta.Complexity
import CodeDelta.Structure
import CodeDelta.Text.Blank

/-!
# The elements of a Python module

The functions, classes and imports that stand directly in a module. A decorated definition spans
from its first decorator to its end. The functions directly in a class's body are its methods.
-/

namespace CodeDelta.Outline.Python

/-- The element of a function; `whole` is the definition with its decorators. -/
def function (definition whole : SyntaxTree) : Element :=
  let name := (definition.fieldText? "name").getD ""
  let lead := if definition.hasChild "async" then "async " else ""
  let parameters := (definition.fieldText? "parameters").getD "()"
  let result := ((definition.fieldText? "return_type").map (" -> " ++ ·)).getD ""
  let complexity := ((definition.field? "body").map (SyntaxTree.complexity .python)).getD 1
  { Element.blank with
    name := name
    signature := some (Text.collapse (lead ++ name ++ parameters ++ result))
    line := some whole.line
    lineCount := some whole.lineCount
    complexity := some complexity }

/-- The definition that a statement holds, decorated or plain. -/
def definition? (statement : SyntaxTree) : Option SyntaxTree :=
  if statement.kind = "decorated_definition" then statement.field? "definition"
  else some statement

/-- The method that a statement of a class's body defines. -/
def method? (statement : SyntaxTree) : Option Element :=
  match definition? statement with
  | some definition =>
    if definition.kind = "function_definition" then some (function definition statement) else none
  | none => none

/-- Whether an argument of a class names a base. -/
def isBase (argument : SyntaxTree) : Bool :=
  argument.kind == "identifier" || argument.kind == "attribute" || argument.kind == "subscript"

/-- The element of a class; `whole` is the definition with its decorators. -/
def classOf (definition whole : SyntaxTree) : Element :=
  { Element.blank with
    name := (definition.fieldText? "name").getD ""
    line := some whole.line
    lineCount := some whole.lineCount
    bases := ((definition.field? "superclasses").map fun arguments =>
      (arguments.namedChildren.filter isBase).map SyntaxTree.text).getD []
    methods := ((definition.field? "body").map fun body =>
      body.children.filterMap method?).getD [] }

/-- Whether a statement is an import. -/
def isImport (statement : SyntaxTree) : Bool :=
  statement.kind == "import_statement" || statement.kind == "import_from_statement" ||
    statement.kind == "future_import_statement"

/-- The element that a statement of a module yields, with its category. -/
def element? (statement : SyntaxTree) : Option (Category × Element) :=
  if isImport statement then
    some (.importDecl, .ofImport (Text.collapse statement.text) statement.line)
  else
    match definition? statement with
    | some definition =>
      if definition.kind = "function_definition" then
        some (.function, function definition statement)
      else if definition.kind = "class_definition" then
        some (.classDef, classOf definition statement)
      else none
    | none => none

/-- The elements of one category. -/
def elements (category : Category) (module_ : SyntaxTree) : List Element :=
  (module_.children.filterMap element?).filterMap fun (found, element) =>
    if found = category then some element else none

/-- The structure of a module. -/
def ofModule (path : String) (module_ : SyntaxTree) : Structure :=
  { Structure.ofFile path with
    language := some Language.python.name
    functions := elements .function module_
    classes := elements .classDef module_
    imports := elements .importDecl module_ }

end CodeDelta.Outline.Python
