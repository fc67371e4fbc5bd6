/-!
# Syntax trees

The trees that analyses walk: every node has a kind, a role in its parent, its text where the
analysis shows it, and the rows it spans. Grammars name the nodes that stand for a construct; the
words and signs between them are nodes without a name of their own. Rows are counted from zero;
lines, as they are shown, from one.
-/

namespace CodeDelta

/-- A node of a syntax tree. -/
structure SyntaxTree where
  /-- What the node is, in the words of its grammar. -/
  kind : String
  /-- Whether the grammar names it; a word or sign of the language itself is not named. -/
  isNamed : Bool
  /-- The field of the parent that the node fills, if any. -/
  role : Option String
  /-- The source text of the node, where it is shown. -/
  text : String
  /-- The row of its first character. -/
  firstRow : Nat
  /-- The row it ends on. -/
  lastRow : Nat
  /-- The parts, in source order. -/
  children : List SyntaxTree
deriving Repr, Inhabited

namespace SyntaxTree

/-- The first child that fills a field. -/
def field? (tree : SyntaxTree) (role : String) : Option SyntaxTree :=
  tree.children.find? fun child => child.role == some role

/-- The text of the child that fills a field. -/
def fieldText? (tree : SyntaxTree) (role : String) : Option String :=
  (tree.field? role).map SyntaxTree.text

/-- Whether some child is of a kind. -/
def hasChild (tree : SyntaxTree) (kind : String) : Bool :=
  tree.children.any fun child => child.kind == kind

/-- The children that the grammar names. -/
def namedChildren (tree : SyntaxTree) : List SyntaxTree := tree.children.filter SyntaxTree.isNamed

/-- The line a node starts at. -/
def line (tree : SyntaxTree) : Nat := tree.firstRow + 1

/-- The number of lines a node spans. -/
def lineCount (tree : SyntaxTree) : Nat := tree.lastRow - tree.firstRow + 1

/-- The same node in another role. -/
def withRole (role : String) (tree : SyntaxTree) : SyntaxTree := { tree with role := some role }

end SyntaxTree

end CodeDelta
