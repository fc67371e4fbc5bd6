import CodeDelta.Syntax.PythonTokens
import CodeDelta.Syntax.Tree

/-!
# Syntax trees of Python

Lines become statements, and lines indented deeper than a header become its block. Within a
statement only the parts are kept that an outline shows and the nodes at which control forks. A
block ends with its last statement; comments after it belong to it up to the first that is indented
less than the block.
-/

namespace CodeDelta.Syntax.Python

/-- A line of code or a line that holds only a comment. -/
structure Line where
  /-- The width of the blanks it starts with. -/
  indent : Nat
  /-- Whether it holds only a comment. -/
  isComment : Bool
  /-- Its tokens, without blanks and comments; a comment line holds its comment. -/
  items : List TokenTree
deriving Repr, Inhabited

/-- The width of leading blanks: a tab counts eight, a carriage return or form feed starts over. -/
def indentWidth (blanks : List Char) : Nat :=
  blanks.foldl (fun width c =>
    if c == ' ' then width + 1
    else if c == '\t' then width + 8
    else if c == '\r' || c.toNat == 12 then 0
    else width) 0

/-- Whether a tree is a token of a kind. -/
def isKind (kind : TokenKind) : TokenTree → Bool
  | .leaf token => token.kind == kind
  | .group _ _ _ => false

/-- The line that trees between two line ends make; blank lines make none. -/
def lineOf? (trees : List TokenTree) : Option Line :=
  let indent :=
    match trees with
    | .leaf token :: _ => if token.kind == .blank then indentWidth token.text.toList else 0
    | _ => 0
  let visible := trees.filter fun tree => !isKind .blank tree
  let code := visible.filter fun tree => !isKind .comment tree
  match visible with
  | [] => none
  | _ :: _ => some (if code.isEmpty then ⟨indent, true, visible⟩ else ⟨indent, false, code⟩)

/-- The lines of a source. -/
def lines (source : List Char) : List Line :=
  (splitTrees (isKind .lineEnd) (tokenTrees source)).filterMap lineOf?

/-- A node over some trees. -/
def nodeOver (kind : String) (trees : List TokenTree) (children : List SyntaxTree) : SyntaxTree :=
  let span := spanOf trees
  ⟨kind, true, none, "", span.firstRow, span.lastRow, children⟩

/-- A node over some trees, with its text. -/
def shownNode (source : List Char) (kind : String) (trees : List TokenTree)
    (children : List SyntaxTree) : SyntaxTree :=
  { nodeOver kind trees children with text := slice source (spanOf trees) }

/-- A fork of control at one token. -/
def forkAt (kind : String) (token : Token) : SyntaxTree :=
  ⟨kind, true, none, token.text, token.span.firstRow, token.span.lastRow, []⟩

mutual

/-- The forks in an expression, and the number of `else` words at its level that no `if` has
claimed: an `if` before such a word is a conditional expression, any other one filters a
comprehension or guards a case. -/
def forksIn : List TokenTree → List SyntaxTree × Nat
  | [] => ([], 0)
  | .leaf token :: rest =>
    -- What follows is read first, so that an `if` knows of the `else` behind it.
    let (nodes, elses) := forksIn rest
    if token.kind != .word then (nodes, elses)
    else if token.text = "and" ∨ token.text = "or" then
      (forkAt "boolean_operator" token :: nodes, elses)
    else if token.text = "for" then (forkAt "for_in_clause" token :: nodes, elses)
    else if token.text = "else" then (nodes, elses + 1)
    else if token.text = "if" then
      if elses = 0 then (forkAt "if_clause" token :: nodes, 0)
      else (forkAt "conditional_expression" token :: nodes, elses - 1)
    else (nodes, elses)
  | tree :: rest =>
    let (nodes, elses) := forksIn rest
    (forksInside tree ++ nodes, elses)

/-- The forks inside brackets. -/
def forksInside : TokenTree → List SyntaxTree
  | .group _ _ items => (forksIn items).1
  | .leaf _ => []

end

/-- The forks in an expression. -/
def forks (trees : List TokenTree) : List SyntaxTree := (forksIn trees).1

/-- Words that are no names. -/
def keywords : List String :=
  ["False", "None", "True", "and", "as", "assert", "break", "class", "continue", "def", "del",
    "elif", "else", "except", "finally", "for", "from", "global", "if", "import", "in", "is",
    "lambda", "nonlocal", "not", "or", "pass", "raise", "return", "try", "while", "with", "yield"]

/-- The kind of a primary expression whose operand is read, by the last thing done to it;
`current` is the kind so far. -/
def trailerKind (current : String) : List TokenTree → String
  | [] => current
  | .group bracket _ _ :: rest =>
    if bracket == '(' then trailerKind "call" rest
    else if bracket == '[' then trailerKind "subscript" rest
    else "expression"
  | .leaf mark :: .leaf name :: rest =>
    if mark.kind == .mark && mark.text == "." && name.kind == .word then
      trailerKind "attribute" rest
    else "expression"
  | .leaf _ :: _ => "expression"

/-- The kind of a class's argument: a name, an attribute or a subscript of a primary expression,
or something else. -/
def argumentKind : List TokenTree → String
  | .leaf token :: rest =>
    match token.kind with
    | .word =>
      if keywords.contains token.text then
        if token.text = "True" ∨ token.text = "False" ∨ token.text = "None" then
          trailerKind "constant" rest
        else "expression"
      else trailerKind "identifier" rest
    | .number | .literal => trailerKind "constant" rest
    | _ => "expression"
  | .group _ _ _ :: rest => trailerKind "parenthesized" rest
  | [] => "expression"

/-- The arguments of a class. -/
def arguments (source : List Char) (items : List TokenTree) : List SyntaxTree :=
  ((splitTrees (TokenTree.isMark ",") items).filter fun piece => !piece.isEmpty).map fun piece =>
    shownNode source (argumentKind piece) piece (forks piece)

/-- The parts of a header before and after its colon; `lambdas` counts the lambdas whose own colon
comes first. -/
def splitHeader (lambdas : Nat) : List TokenTree → List TokenTree × List TokenTree
  | [] => ([], [])
  | tree :: rest =>
    if tree.isMark ":" then
      if lambdas = 0 then ([], rest)
      else
        let (header, suite) := splitHeader (lambdas - 1) rest
        (tree :: header, suite)
    else
      let lambdas := if tree.isWord "lambda" then lambdas + 1 else lambdas
      let (header, suite) := splitHeader lambdas rest
      (tree :: header, suite)

/-- A statement on one line. -/
def simpleStatement (source : List Char) (trees : List TokenTree) : SyntaxTree :=
  match trees with
  | first :: second :: _ =>
    if first.isWord "import" then shownNode source "import_statement" trees []
    else if first.isWord "from" then
      shownNode source
        (if second.isWord "__future__" then "future_import_statement" else "import_from_statement")
        trees []
    else if first.isWord "assert" then nodeOver "assert_statement" trees (forks trees)
    else nodeOver "expression_statement" trees (forks trees)
  | _ => nodeOver "expression_statement" trees (forks trees)

/-- The statements between semicolons. -/
def simpleStatements (source : List Char) (trees : List TokenTree) : List SyntaxTree :=
  ((splitTrees (TokenTree.isMark ";") trees).filter fun piece => !piece.isEmpty).map
    (simpleStatement source)

/-- What a header makes of its line. -/
inductive Header where
  /-- A function, with the word `async` or without. -/
  | function (isAsync : Bool)
  /-- A class. -/
  | classDef
  /-- A match, whose block holds cases. -/
  | choice
  /-- A statement of a kind, or a clause of the statement before. -/
  | other (kind : String) (isClause : Bool)
deriving DecidableEq, Repr

/-- The header at the start of a line, and the words it takes; `inChoice` inside a match. -/
def headerOf? (inChoice : Bool) (trees : List TokenTree) : Option Header :=
  let words := trees.map fun tree => tree.word?.getD ""
  match words with
  | "def" :: _ => some (.function false)
  | "class" :: _ => some .classDef
  | "async" :: "def" :: _ => some (.function true)
  | "async" :: "for" :: _ => some (.other "for_statement" false)
  | "async" :: "with" :: _ => some (.other "with_statement" false)
  | "if" :: _ => some (.other "if_statement" false)
  | "for" :: _ => some (.other "for_statement" false)
  | "while" :: _ => some (.other "while_statement" false)
  | "try" :: _ => some (.other "try_statement" false)
  | "with" :: _ => some (.other "with_statement" false)
  | "elif" :: _ => some (.other "elif_clause" true)
  | "else" :: _ => some (.other "else_clause" true)
  | "finally" :: _ => some (.other "finally_clause" true)
  | "except" :: _ =>
    some (.other (if (trees.drop 1).head?.any (TokenTree.isMark "*") then "except_group_clause"
      else "except_clause") true)
  | "case" :: _ => if inChoice then some (.other "case_clause" false) else none
  -- As a name, `match` starts no header.
  | "match" :: _ :: _ =>
    if (trees.drop 1).head?.any (TokenTree.isMark ":") then none
    else if trees.getLast?.any (TokenTree.isMark ":") then some .choice
    else none
  | _ => none

/-- The parts of a function's header from its name on. -/
def functionParts (source : List Char) : List TokenTree → List SyntaxTree
  | [] => []
  | name :: rest =>
    let afterTypes := rest.dropWhile (TokenTree.isGroup '[')
    let parameters := afterTypes.takeWhile (TokenTree.isGroup '(')
    let result := (afterTypes.drop parameters.length).drop 1
    [(shownNode source "identifier" [name] []).withRole "name"] ++
      (if parameters.isEmpty then []
        else [(shownNode source "parameters" parameters (forks parameters)).withRole
          "parameters"]) ++
      (if result.isEmpty then []
        else [(shownNode source "type" result (forks result)).withRole "return_type"])

/-- The parts of a class's header from its name on. -/
def classParts (source : List Char) : List TokenTree → List SyntaxTree
  | [] => []
  | name :: rest =>
    [(shownNode source "identifier" [name] []).withRole "name"] ++
      match rest.dropWhile (TokenTree.isGroup '[') with
      | .group bracket span items :: _ =>
        [(nodeOver "argument_list" [.group bracket span items]
          (arguments source items)).withRole "superclasses"]
      | _ => []

/-- The parts of a header before its colon. -/
def headerParts (source : List Char) (header : Header) (trees : List TokenTree) :
    List SyntaxTree :=
  match header with
  | .function true =>
    { nodeOver "async" (trees.take 1) [] with isNamed := false } ::
      functionParts source (trees.drop 2)
  | .function false => functionParts source (trees.drop 1)
  | .classDef => classParts source (trees.drop 1)
  | .choice => forks (trees.drop 1)
  | .other _ _ =>
    forks (trees.drop (if trees.head?.any (TokenTree.isWord "async") then 2 else 1))

/-- The kind of the statement a header starts. -/
def Header.kind : Header → String
  | .function _ => "function_definition"
  | .classDef => "class_definition"
  | .choice => "match_statement"
  | .other kind _ => kind

/-- Whether a node is a comment. -/
def isCommentNode (node : SyntaxTree) : Bool := node.kind == "comment"

/-- The clauses that continue a statement. -/
def isClauseNode (node : SyntaxTree) : Bool :=
  node.kind == "elif_clause" || node.kind == "else_clause" || node.kind == "finally_clause" ||
    node.kind == "except_clause" || node.kind == "except_group_clause"

/-- Gives a statement the clauses that follow it, and the comments between them; `pending` holds
comments after which no clause came yet. -/
def adopt (node : SyntaxTree) (pending : List SyntaxTree) : List SyntaxTree → List SyntaxTree
  | [] => node :: pending
  | next :: rest =>
    if isCommentNode next then adopt node (pending ++ [next]) rest
    else if isClauseNode next then
      adopt { node with
        lastRow := next.lastRow
        children := node.children ++ pending ++ [next] } [] rest
    else node :: (pending ++ next :: rest)

/-- Gives the definition that follows to a decorator. -/
def decorate (decorator : SyntaxTree) (following : List SyntaxTree) : List SyntaxTree :=
  let comments := following.takeWhile isCommentNode
  match following.drop comments.length with
  | [] => decorator :: following
  | definition :: rest =>
    let parts :=
      if definition.kind = "decorated_definition" then definition.children
      else [definition.withRole "definition"]
    ⟨"decorated_definition", true, none, "", decorator.firstRow, definition.lastRow,
      decorator :: (comments ++ parts)⟩ :: rest

/-- The lines of the block under a header that is indented by `indent`, and the lines after it. -/
def takeBlock (indent : Nat) (rest : List Line) : List Line × List Line :=
  let reach := rest.takeWhile fun line => line.isComment || line.indent > indent
  match reach.find? fun line => !line.isComment with
  | none => ([], rest)
  | some first =>
    -- Comments behind the last line of code stay as long as they keep to the block's own indent.
    let trailing := (reach.reverse.takeWhile Line.isComment).reverse
    let solid := reach.take (reach.length - trailing.length)
    let kept := trailing.takeWhile fun line => line.indent ≥ first.indent
    let size := solid.length + kept.length
    (rest.take size, rest.drop size)

/-- The row that a block ends on; an empty one ends with its header. -/
def endRow (header : SyntaxTree) (block : List SyntaxTree) : Nat :=
  (block.getLast?.map SyntaxTree.lastRow).getD header.lastRow

/-- The statements of lines; `fuel` exceeds the number of lines. -/
def statements (source : List Char) : Nat → (inChoice : Bool) → List Line → List SyntaxTree
  | 0, _, _ => []
  | _ + 1, _, [] => []
  | fuel + 1, inChoice, line :: rest =>
    if line.isComment then
      nodeOver "comment" line.items [] :: statements source fuel inChoice rest
    else if line.items.head?.any (TokenTree.isMark "@") then
      decorate (nodeOver "decorator" line.items (forks line.items))
        (statements source fuel inChoice rest)
    else
      match headerOf? inChoice line.items with
      | none => simpleStatements source line.items ++ statements source fuel inChoice rest
      | some header =>
        let (headTrees, suite) := splitHeader 0 line.items
        let head := nodeOver header.kind line.items (headerParts source header headTrees)
        let isClause :=
          match header with
          | .other _ isClause => isClause
          | _ => false
        let close (block : List SyntaxTree) (lastRow : Nat) (following : List SyntaxTree) :
            List SyntaxTree :=
          let firstRow := (block.head?.map SyntaxTree.firstRow).getD lastRow
          let body : SyntaxTree := ⟨"block", true, some "body", "", firstRow, lastRow, block⟩
          let node := { head with lastRow := lastRow, children := head.children ++ [body] }
          if isClause then node :: following else adopt node [] following
        -- The block stands on the lines below, or on the header's own.
        if suite.isEmpty then
          let (inside, after) := takeBlock line.indent rest
          let block := statements source fuel (header == .choice) inside
          close block (endRow head block) (statements source fuel inChoice after)
        else
          close (simpleStatements source suite) head.lastRow
            (statements source fuel inChoice rest)

/-- The syntax tree of a source. -/
def parse (source : List Char) : SyntaxTree :=
  let lines := lines source
  ⟨"module", true, none, "", 0, source.count '\n',
    statements source (lines.length + 1) false lines⟩

end CodeDelta.Syntax.Python
