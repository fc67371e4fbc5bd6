import CodeDelta.Syntax.Tree

/-!
# Cyclomatic complexity

The complexity of a part of a program is one more than the number of its nodes at which control
forks. Each language lists the kinds of these nodes; an operator between two operands counts only
when it is a lazy one.
-/

namespace CodeDelta

/-- The languages that sources are read in. -/
inductive Language where
  | python
  | rust
deriving DecidableEq, Repr, Inhabited

namespace Language

/-- The language's name. -/
def name : Language → String
  | python => "python"
  | rust => "rust"

/-- The language of a name. -/
def ofName? (text : String) : Option Language :=
  [python, rust].find? fun language => language.name == text

/-- The kinds of nodes at which control forks. -/
def forkKinds : Language → List String
  | python =>
    ["if_statement", "elif_clause", "for_statement", "while_statement", "except_clause",
      "with_statement", "assert_statement", "boolean_operator", "conditional_expression",
      "case_clause", "for_in_clause", "if_clause"]
  | rust =>
    ["if_expression", "for_expression", "while_expression", "loop_expression", "match_arm",
      "try_expression", "binary_expression"]

end Language

namespace SyntaxTree

/-- The operators that evaluate their second operand only when it matters. -/
def lazyOperators : List String := ["&&", "||"]

/-- Whether a node's operator is lazy. -/
def hasLazyOperator (tree : SyntaxTree) : Bool :=
  (tree.fieldText? "operator").any lazyOperators.contains

/-- Whether control forks at a node. -/
def isFork (language : Language) (tree : SyntaxTree) : Bool :=
  language.forkKinds.contains tree.kind &&
    (tree.kind != "binary_expression" || tree.hasLazyOperator)

mutual

/-- The number of forks in a tree, its root included. -/
def forkCount (language : Language) : SyntaxTree → Nat
  | ⟨kind, isNamed, role, text, firstRow, lastRow, children⟩ =>
    (if isFork language ⟨kind, isNamed, role, text, firstRow, lastRow, children⟩ then 1 else 0) +
      forkCountAll language children

/-- The number of forks in several trees. -/
def forkCountAll (language : Language) : List SyntaxTree → Nat
  | [] => 0
  | tree :: rest => forkCount language tree + forkCountAll language rest

end

/-- The complexity of a tree. -/
def complexity (language : Language) (tree : SyntaxTree) : Nat := forkCount language tree + 1

/-- The complexity of a tree in the language of a name; one when there is no such language. -/
def complexityIn (languageName : String) (tree : SyntaxTree) : Nat :=
  ((Language.ofName? languageName).map fun language => tree.complexity language).getD 1

end SyntaxTree

end CodeDelta
