import CodeDelta.Failure
import CodeDelta.Outline.PythonElements
import CodeDelta.Outline.RustElements
import CodeDelta.Syntax.PythonTree
import CodeDelta.Syntax.RustTree
import CodeDelta.Text.Utf8

/-!
# Outlines of source files

The structure of a source file: its bytes are decoded, the text becomes a syntax tree, and the
elements of the tree are gathered. Bytes that are not UTF-8 are refused.
-/

namespace CodeDelta

/-- The syntax tree of a text. -/
def Language.parse (language : Language) (source : List Char) : SyntaxTree :=
  match language with
  | .python => Syntax.Python.parse source
  | .rust => Syntax.Rust.parse source

/-- The elements of a syntax tree, gathered under a path. -/
def Language.outline (language : Language) (path : String) (tree : SyntaxTree) : Structure :=
  match language with
  | .python => Outline.Python.ofModule path tree
  | .rust => Outline.Rust.ofFile path tree

/-- The structure of a source file. -/
def Language.analyze (language : Language) (path : String) (bytes : List UInt8) :
    Except Failure Structure :=
  match Text.decodeUtf8 bytes with
  | .error fault => .error (.analysis path s!"not valid UTF-8: {fault.message}")
  | .ok source => .ok (language.outline path (language.parse source))

end CodeDelta
