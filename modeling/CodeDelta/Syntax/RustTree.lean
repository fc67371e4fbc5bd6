import CodeDelta.Syntax.RustTokens
import CodeDelta.Syntax.Tree

/-!
# Syntax trees of Rust

Items with their parts, and in expressions the nodes at which control forks. Where an expression
ends depends on its place: a condition ends before the braces of its body, and a statement or the
value of a match arm that starts with a block ends with it unless an operator follows that no
expression starts with.
-/

namespace CodeDelta.Syntax.Rust

/-- The marks in front, as far as they touch each other, as characters. -/
def marks : Nat → List TokenTree → List Char
  | 0, _ => []
  | count + 1, .leaf token :: rest =>
    if token.kind == .mark then
      token.text.toList ++
        match rest with
        | .leaf next :: _ =>
          if next.span.start == token.span.stop then marks count rest else []
        | _ => []
    else []
  | _, _ => []

/-- Whether the marks in front start with an operator. -/
def startsWithMarks (operator : String) (trees : List TokenTree) : Bool :=
  marks operator.length trees == operator.toList

/-- The number of marks that the operator in front takes between two operands. -/
def operatorSize (trees : List TokenTree) : Nat :=
  match marks 3 trees with
  | ['<', '<', '='] | ['>', '>', '='] => 3
  | '=' :: '=' :: _ | '!' :: '=' :: _ | '<' :: '=' :: _ | '>' :: '=' :: _ | '&' :: '&' :: _
  | '|' :: '|' :: _ | '<' :: '<' :: _ | '>' :: '>' :: _ | '+' :: '=' :: _ | '-' :: '=' :: _
  | '*' :: '=' :: _ | '/' :: '=' :: _ | '%' :: '=' :: _ | '^' :: '=' :: _ | '&' :: '=' :: _
  | '|' :: '=' :: _ => 2
  | _ => 1

/-- Whether the word in front is one of some. -/
def startsWithWord (words : List String) (trees : List TokenTree) : Bool :=
  (trees.head?.bind TokenTree.word?).any words.contains

/-- What follows angle brackets of which `depth` are open; arrows close none. -/
def skipAngles : (depth : Nat) → List TokenTree → List TokenTree
  | _, [] => []
  | depth, first :: rest =>
    if first.isMark "<" then skipAngles (depth + 1) rest
    else if first.isMark ">" then if depth ≤ 1 then rest else skipAngles (depth - 1) rest
    else if startsWithMarks "->" (first :: rest) || startsWithMarks "=>" (first :: rest) then
      match rest with
      | _ :: after => skipAngles depth after
      | [] => []
    else skipAngles depth rest

/-- The trees up to the first outside of angle brackets that `stop` accepts, and the rest from
there on; `stop` sees all that follows. -/
def takeUntil (stop : List TokenTree → Bool) :
    (depth : Nat) → List TokenTree → List TokenTree × List TokenTree
  | _, [] => ([], [])
  | depth, first :: rest =>
    if depth = 0 && stop (first :: rest) then ([], first :: rest)
    else if startsWithMarks "->" (first :: rest) || startsWithMarks "=>" (first :: rest) then
      -- An arrow is taken whole, for its second mark closes no bracket.
      match rest with
      | second :: after =>
        let (taken, left) := takeUntil stop depth after
        (first :: second :: taken, left)
      | [] => ([first], [])
    else
      let depth :=
        if first.isMark "<" then depth + 1 else if first.isMark ">" then depth - 1 else depth
      let (taken, left) := takeUntil stop depth rest
      (first :: taken, left)

/-- Whether a block or a semicolon is in front. -/
def atBody (trees : List TokenTree) : Bool :=
  trees.head?.any fun tree => tree.isGroup '\x7b' || tree.isMark ";"

/-- Whether a `where`, a block or a semicolon is in front. -/
def atWhere (trees : List TokenTree) : Bool := atBody trees || startsWithWord ["where"] trees

/-- Whether the sign of a binding is in front, and no longer operator. -/
def atEquals (trees : List TokenTree) : Bool :=
  trees.head?.any (TokenTree.isMark "=") && !startsWithMarks "==" trees &&
    !startsWithMarks "=>" trees

/-- What follows a pattern and its type: the sign of a binding, or a semicolon. The sign that ends
`..=` binds nothing. -/
def skipPattern : (depth : Nat) → List TokenTree → List TokenTree
  | _, [] => []
  | depth, first :: rest =>
    if startsWithMarks "..=" (first :: rest) then
      match rest with
      | _ :: _ :: after => skipPattern depth after
      | _ => []
    else if startsWithMarks "->" (first :: rest) then
      match rest with
      | _ :: after => skipPattern depth after
      | [] => []
    else if depth = 0 && (atEquals (first :: rest) || first.isMark ";") then first :: rest
    else if first.isMark "<" then skipPattern (depth + 1) rest
    else if first.isMark ">" then skipPattern (depth - 1) rest
    else skipPattern depth rest

/-- Types that take no arguments. -/
def primitiveTypes : List String :=
  ["u8", "i8", "u16", "i16", "u32", "i32", "u64", "i64", "u128", "i128", "isize", "usize", "f32",
    "f64", "bool", "str", "char"]

/-- What follows the path of a type; `bare` when a `<` after it compares. -/
def skipPathType (bare : Bool) : List TokenTree → List TokenTree
  | [] => []
  | first :: rest =>
    if first.isMark "<" && !bare then skipAngles 1 rest
    else if startsWithMarks "::" (first :: rest) then
      match rest with
      | _ :: next :: after =>
        if next.isMark "<" then skipAngles 1 after else skipPathType false after
      | _ => []
    else first :: rest

/-- What follows the type of a cast. -/
def skipCastType : Nat → List TokenTree → List TokenTree
  | 0, trees => trees
  | _ + 1, [] => []
  | fuel + 1, first :: rest =>
    -- What may stand before the type proper.
    if first.isMark "&" || first.isMark "*" ||
        startsWithWord ["mut", "const", "dyn", "impl", "unsafe"] (first :: rest) then
      skipCastType fuel rest
    else if startsWithWord ["extern"] (first :: rest) then
      skipCastType fuel (rest.dropWhile fun tree => !tree.isWord "fn")
    else if startsWithWord ["for"] (first :: rest) then
      skipCastType fuel (skipAngles 0 rest)
    -- The type of a function: its parameters, and its result behind an arrow.
    else if startsWithWord ["fn"] (first :: rest) then
      let after := rest.drop 1
      if startsWithMarks "->" after then skipCastType fuel (after.drop 2) else after
    -- A path, which may start with a qualified type or at the root.
    else if first.isMark "<" then skipPathType true (skipAngles 1 rest)
    else if startsWithMarks "::" (first :: rest) then skipCastType fuel (rest.drop 1)
    else
      match first with
      | .leaf token =>
        if token.kind == .label then skipCastType fuel rest
        else
          let after := skipPathType (primitiveTypes.contains token.text) rest
          match after with
          | .group '(' _ _ :: more =>
            if startsWithMarks "->" more then skipCastType fuel (more.drop 2) else after
          | _ => after
      | .group _ _ _ => rest

/-- Where an expression stands. -/
inductive Place where
  /-- At the start of a statement. -/
  | statement
  /-- In the value of a match arm. -/
  | arm
  /-- Before the braces of a body; `chained` after a `let`, whose operators join conditions. -/
  | condition (chained : Bool)
  /-- Anywhere else; `chained` as in a condition. -/
  | plain (chained : Bool)
deriving DecidableEq, Repr

namespace Place

/-- Whether braces end the expression. -/
def beforeBody : Place → Bool
  | condition _ => true
  | _ => false

/-- Whether `&&` joins conditions here. -/
def isChained : Place → Bool
  | condition chained | plain chained => chained
  | _ => false

/-- The place after a `let`. -/
def chain : Place → Place
  | condition _ => condition true
  | _ => plain true

/-- Whether a block at the start ends the expression. -/
def endsWithBlock : Place → Bool
  | statement | arm => true
  | _ => false

end Place

/-- Whether what follows a block continues the expression that the block is part of. -/
def continues (trees : List TokenTree) : Bool :=
  match marks 2 trees with
  | '.' :: next => next != ['.']
  | '?' :: _ | '+' :: _ | '/' :: _ | '%' :: _ | '^' :: _ | '>' :: _ => true
  | '=' :: next => next != ['>']
  | '!' :: next | '<' :: next => next == ['=']
  | _ => startsWithWord ["as"] trees

/-- A node over a part of the source. -/
def node (kind : String) (span : Span) (children : List SyntaxTree) : SyntaxTree :=
  ⟨kind, true, none, "", span.firstRow, span.lastRow, children⟩

/-- A source as the parser sees it. -/
structure Input where
  /-- The characters. -/
  source : List Char
  /-- The comments outside of brackets. -/
  comments : List Token

/-- A node over a part of the source, with its text. -/
def Input.shown (input : Input) (kind : String) (span : Span) (children : List SyntaxTree) :
    SyntaxTree :=
  { node kind span children with text := slice input.source span }

/-- A node over some trees, with their text and its role. -/
def Input.part (input : Input) (kind role : String) (trees : List TokenTree)
    (children : List SyntaxTree) : SyntaxTree :=
  let span := spanOf trees
  ⟨kind, true, some role, slice input.source span, span.firstRow, span.lastRow, children⟩

/-- The fork of a lazy operator. -/
def lazyFork (operator : String) (first : TokenTree) : SyntaxTree :=
  node "binary_expression" first.span
    [⟨operator, false, some "operator", operator, first.span.firstRow, first.span.lastRow, []⟩]

/-- What follows the visibility of an item. -/
def skipVisibility : List TokenTree → List TokenTree
  | [] => []
  | first :: rest =>
    if first.isWord "pub" then
      match rest with
      | .group '(' _ _ :: after => after
      | _ => rest
    else first :: rest

/-- The modifiers of a function, and what follows them; a literal names the interface of the
`extern` before it. -/
def takeModifiers (afterExtern : Bool) : List TokenTree → List TokenTree × List TokenTree
  | [] => ([], [])
  | first :: rest =>
    let isModifier : Bool :=
      match first with
      | .leaf token =>
        (afterExtern && token.kind == .literal) || (token.kind == .word &&
          ["async", "const", "unsafe", "default", "extern"].contains token.text)
      | .group _ _ _ => false
    if isModifier then
      let (taken, left) := takeModifiers (first.isWord "extern") rest
      (first :: taken, left)
    else ([], first :: rest)

/-- The items that a statement may be. -/
inductive ItemKind where
  | function
  | «structure»
  | enumeration
  | union
  | trait
  | implementation
  | module
  | use
  | externCrate
  | foreignBlock
  | alias
  | constant
deriving DecidableEq, Repr

/-- The item at the start of a statement after its visibility, and what follows its keyword. -/
def itemAt? (trees : List TokenTree) : Option (ItemKind × List TokenTree) :=
  let (_, afterModifiers) := takeModifiers false trees
  if startsWithWord ["fn"] afterModifiers then some (.function, afterModifiers.drop 1)
  else
    let base := trees.dropWhile fun tree =>
      tree.isWord "unsafe" || tree.isWord "default" || tree.isWord "auto"
    match base with
    | [] => none
    | first :: rest =>
      match first.word? with
      | some "struct" => some (.structure, rest)
      | some "enum" => some (.enumeration, rest)
      | some "trait" => some (.trait, rest)
      | some "impl" => some (.implementation, rest)
      | some "mod" => some (.module, rest)
      | some "use" => some (.use, rest)
      | some "type" => some (.alias, rest)
      -- These four words are keywords only before certain others.
      | some "union" =>
        if (rest.head?.bind TokenTree.word?).any (· != "as") then some (.union, rest) else none
      | some "static" =>
        if (rest.head?.bind TokenTree.word?).any (· != "move") then some (.constant, rest) else none
      | some "const" =>
        if (rest.head?.bind TokenTree.word?).any fun word => word != "move" && word != "async" then
          some (.constant, rest)
        else none
      | some "extern" =>
        if startsWithWord ["crate"] rest then some (.externCrate, rest)
        else
          match rest with
          | .group '\x7b' _ _ :: _ | .leaf _ :: .group '\x7b' _ _ :: _ => some (.foreignBlock, rest)
          | _ => none
      | _ => none

/-- The bounds of a trait, and the comments between them; `start` is the place of the colon. -/
def bounds (input : Input) (start : Nat) (trees : List TokenTree) : List SyntaxTree :=
  let pieces := (splitBounds 0 trees).filter fun piece => !piece.isEmpty
  let last := spanOf (pieces.getLast?.getD [])
  let comments := input.comments.filter fun comment =>
    start ≤ comment.span.start && comment.span.stop ≤ last.start &&
      pieces.all fun piece =>
        comment.span.stop ≤ (spanOf piece).start || (spanOf piece).stop ≤ comment.span.start
  let shown := pieces.map fun piece => (spanOf piece, input.part "bound" "bound" piece [])
  let said := comments.map fun comment =>
    (comment.span, { node "comment" comment.span [] with text := comment.text })
  ((shown ++ said).mergeSort fun a b => a.1.start ≤ b.1.start).map Prod.snd
where
  /-- The pieces between the plus signs outside of angle brackets. -/
  splitBounds : Nat → List TokenTree → List (List TokenTree)
    | _, [] => [[]]
    | depth, first :: rest =>
      let arrow := startsWithMarks "->" (first :: rest)
      let depth' :=
        if first.isMark "<" then depth + 1
        else if first.isMark ">" then depth - 1
        else if arrow then depth + 1
        else depth
      if depth = 0 && first.isMark "+" then [] :: splitBounds 0 rest
      else
        match splitBounds depth' rest with
        | piece :: pieces => (first :: piece) :: pieces
        | [] => [[first]]

/-- Whether a label is in front, or the end of angle brackets. -/
def atBinder (trees : List TokenTree) : Bool :=
  trees.head?.any fun tree =>
    match tree with
    | .leaf token => token.kind == .label || (token.kind == .mark && token.text == ">")
    | .group _ _ _ => false

/-- Whether `for` is in front and separates a trait from a type; it may bind lifetimes instead. -/
def atFor (trees : List TokenTree) : Bool :=
  startsWithWord ["for"] trees &&
    !((trees.drop 1).head?.any (TokenTree.isMark "<") && atBinder (trees.drop 2))

/-- Whether what stands in angle brackets starts with a parameter, and not with a type that is no
name alone. -/
def atParameter : List TokenTree → Bool
  | [] => false
  | first :: rest =>
    atBinder (first :: rest) || first.isWord "const" || first.isMark "#" ||
      (first.word?.isSome && !startsWithMarks "::" rest && rest.head?.any fun next =>
        next.isMark ">" || next.isMark "," || next.isMark ":" || next.isMark "=")

/-- The parts of an implementation's header after `impl`: its trait, if any, and its type. -/
def implementationParts (input : Input) (trees : List TokenTree) : List SyntaxTree :=
  -- Angle brackets in front hold parameters, unless they qualify the path that goes on behind them.
  let afterTypes :=
    match trees with
    | first :: rest =>
      let after := skipAngles 1 rest
      if first.isMark "<" && (atParameter rest || !startsWithMarks "::" after) then after
      else trees
    | [] => []
  let header := (takeUntil atWhere 0 afterTypes).1
  match takeUntil atFor 0 header with
  | (type, []) => [input.part "type" "type" type []]
  | (traitTrees, _ :: type) =>
    let named :=
      match traitTrees with
      | first :: rest => if first.isMark "!" then rest else traitTrees
      | [] => []
    [input.part "type" "trait" named [], input.part "type" "type" type []]

/-- The parts of a function's header after `fn`, and what follows it. -/
def functionParts (input : Input) (trees : List TokenTree) :
    List SyntaxTree × List TokenTree :=
  let name := trees.take 1
  let afterName := trees.drop 1
  let afterTypes :=
    match afterName with
    | first :: rest => if first.isMark "<" then skipAngles 1 rest else afterName
    | [] => []
  let types := afterName.take (afterName.length - afterTypes.length)
  let parameters := afterTypes.take 1
  let afterParameters := afterTypes.drop 1
  let (result, afterResult) :=
    if startsWithMarks "->" afterParameters then
      takeUntil atWhere 0 (afterParameters.drop 2)
    else ([], afterParameters)
  let typeParts :=
    if types.isEmpty then [] else [input.part "type_parameters" "type_parameters" types []]
  let resultParts :=
    if result.isEmpty then [] else [input.part "type" "return_type" result []]
  ([input.part "identifier" "name" name []] ++ typeParts ++
      [input.part "parameters" "parameters" parameters []] ++ resultParts,
    (takeUntil atBody 0 afterResult).2)

/-- The last tree of an item whose header is skipped: its block or its semicolon. -/
def itemEnd (first : TokenTree) (rest : List TokenTree) : Span :=
  first.span.to ((rest.head?.getD first).span)

/-- A block, given how its statements are read. -/
def block (inside : List TokenTree → List SyntaxTree) : TokenTree → SyntaxTree
  | .group _ span items => node "block" span (inside items)
  | .leaf token => node "block" token.span []

mutual

/-- The nodes of statements. -/
def statements (input : Input) : Nat → List TokenTree → List SyntaxTree
  | 0, _ => []
  | _ + 1, [] => []
  | fuel + 1, first :: rest =>
    if first.isMark ";" then statements input fuel rest
    else if first.isMark "#" then
      statements input fuel (rest.dropWhile (TokenTree.isMark "!") |>.drop 1)
    else
      match itemAt? (skipVisibility (first :: rest)) with
      | some (kind, after) =>
        let (found, left) := item input fuel kind (first :: rest) after
        found :: statements input fuel (left.take rest.length)
      | none =>
        if first.isWord "let" then
          let (nodes, left) := letStatement input fuel rest
          nodes ++ statements input fuel (left.take rest.length)
        else
          let (nodes, left) := operand input fuel .statement true (first :: rest)
          nodes ++ statements input fuel (if left.length > rest.length then rest else left)

/-- An item whose keyword was found; `whole` starts with its visibility. -/
def item (input : Input) : Nat → ItemKind → (whole after : List TokenTree) →
    SyntaxTree × List TokenTree
  | 0, _, _, _ => (default, [])
  | fuel + 1, kind, whole, after =>
    let first := whole.head?.getD (.group ' ' ⟨0, 0, 0, 0⟩ [])
    let named (label : String) (parts : List SyntaxTree) (body : String)
        (rest : List TokenTree) : SyntaxTree × List TokenTree :=
      let bodyParts :=
        match rest with
        | .group _ span items :: _ =>
          [{ node body span (statements input fuel items) with role := some "body" }]
        | _ => []
      (input.shown label (itemEnd first rest) (parts ++ bodyParts), rest.drop 1)
    let plain (label : String) (rest : List TokenTree) : SyntaxTree × List TokenTree :=
      (input.shown label (itemEnd first rest) [input.part "identifier" "name" (after.take 1) []],
        rest.drop 1)
    -- Where items without and with a body end.
    let toSemicolon := (takeUntil (fun trees => trees.head?.any (TokenTree.isMark ";")) 0 after).2
    let toBody := (takeUntil atBody 0 after).2
    match kind with
    | .function =>
      let modifiers := (takeModifiers false (skipVisibility whole)).1
      let (parts, rest) := functionParts input after
      let lead :=
        if modifiers.isEmpty then []
        else [{ input.part "function_modifiers" "modifiers" modifiers [] with role := none }]
      match rest with
      | .group _ _ _ :: _ => named "function_item" (lead ++ parts) "block" rest
      | _ => named "function_signature_item" (lead ++ parts) "block" rest
    | .structure => plain "struct_item" toBody
    | .enumeration => plain "enum_item" toBody
    | .union => plain "union_item" toBody
    | .trait =>
      let header := (takeUntil atWhere 0 (after.drop 1)).1
      let afterColon := (takeUntil (fun trees => trees.head?.any (TokenTree.isMark ":")) 0 header).2
      -- The bounds go on from the colon up to the body or its conditions.
      let boundTrees := afterColon.drop 1
      let boundParts :=
        if boundTrees.isEmpty then []
        else [{ input.part "trait_bounds" "bounds" afterColon [] with
          children := bounds input (spanOf afterColon).start boundTrees }]
      named "trait_item" ([input.part "identifier" "name" (after.take 1) []] ++ boundParts)
        "declaration_list" toBody
    | .implementation =>
      named "impl_item" (implementationParts input after) "declaration_list" toBody
    | .module =>
      named "mod_item" [input.part "identifier" "name" (after.take 1) []] "declaration_list" toBody
    | .foreignBlock => named "foreign_mod_item" [] "declaration_list" toBody
    | .use => plain "use_declaration" toSemicolon
    | .externCrate => plain "extern_crate_declaration" toSemicolon
    | .alias => plain "type_item" toSemicolon
    | .constant =>
      match skipPattern 0 after with
      | sign :: value =>
        if sign.isMark "=" then
          let (nodes, rest) := operand input fuel (.plain false) false value
          (node "const_item" (itemEnd first rest) nodes, rest.drop 1)
        else (node "const_item" (itemEnd first [sign]) [], value)
      | [] => (node "const_item" first.span [], [])

/-- A binding after `let`. -/
def letStatement (input : Input) : Nat → List TokenTree → List SyntaxTree × List TokenTree
  | 0, _ => ([], [])
  | fuel + 1, trees =>
    match skipPattern 0 trees with
    | sign :: value =>
      if sign.isMark "=" then
        let (nodes, rest) := operand input fuel (.plain false) false value
        -- A binding that may fail has a block to leave by.
        match rest with
        | first :: body :: after =>
          if first.isWord "else" then (nodes ++ [block (statements input fuel) body], after)
          else (nodes, rest)
        | _ => (nodes, rest)
      else ([], value)
    | [] => ([], [])

/-- An expression from where an operand is due. `leads` at the start of a statement or arm, where
a block may end the expression. -/
def operand (input : Input) : Nat → Place → (leads : Bool) → List TokenTree →
    List SyntaxTree × List TokenTree
  | 0, _, _, _ => ([], [])
  | _ + 1, _, _, [] => ([], [])
  | fuel + 1, place, leads, first :: rest =>
    -- After a block: the end of the expression, or an operator.
    let ended (found : List SyntaxTree) (left : List TokenTree) :
        List SyntaxTree × List TokenTree :=
      if leads && place.endsWithBlock && !continues left then (found, left)
      else
        let (nodes, left) := operators input fuel place false left
        (found ++ nodes, left)
    let go (place : Place) (leads : Bool) (left : List TokenTree) :
        List SyntaxTree × List TokenTree := operand input fuel place leads left
    match first with
    | .group bracket span items =>
      if bracket == '\x7b' then
        ended [node "block" span (statements input fuel items)] rest
      else
        let inside := elements input fuel items
        let (nodes, left) := operators input fuel place false rest
        (inside ++ nodes, left)
    | .leaf token =>
      match token.kind with
      | .word =>
        match token.text with
        | "if" =>
          let (parts, left) := branches input fuel rest
          ended [node "if_expression" token.span parts] left
        | "while" =>
          let (parts, left) := operand input fuel (.condition false) false rest
          let body := (left.head?.map fun tree => [block (statements input fuel) tree]).getD []
          ended [node "while_expression" token.span (parts ++ body)] (left.drop 1)
        | "loop" =>
          let body := (rest.head?.map fun tree => [block (statements input fuel) tree]).getD []
          ended [node "loop_expression" token.span body] (rest.drop 1)
        | "for" =>
          -- Before angle brackets the word binds lifetimes of a closure.
          if rest.head?.any (TokenTree.isMark "<") then go place false (skipAngles 1 (rest.drop 1))
          else
            let afterIn := (rest.dropWhile fun tree => !tree.isWord "in").drop 1
            let (parts, left) := operand input fuel (.condition false) false afterIn
            let body := (left.head?.map fun tree => [block (statements input fuel) tree]).getD []
            ended [node "for_expression" token.span (parts ++ body)] (left.drop 1)
        | "match" =>
          let (parts, left) := operand input fuel (.condition false) false rest
          let body :=
            match left with
            | .group _ span items :: _ => [node "match_block" span (arms input fuel items)]
            | _ => []
          ended [node "match_expression" token.span (parts ++ body)] (left.drop 1)
        -- Words before a block or a closure.
        | "unsafe" | "async" | "const" | "move" | "static" => go place leads rest
        | "try" =>
          if rest.head?.any (TokenTree.isGroup '\x7b') then go place leads rest
          else operators input fuel place true rest
        | "return" | "break" | "continue" | "yield" =>
          -- A label right behind is the target of the jump, unless it names the loop that follows.
          match rest with
          | .leaf next :: after =>
            if next.kind == .label && !startsWithMarks ":" after then go place false after
            else go place false rest
          | _ => go place false rest
        | "let" =>
          match skipPattern 0 rest with
          | _ :: value => go place.chain false value
          | [] => ([], [])
        | "mut" => go place false rest
        | "raw" =>
          if startsWithWord ["const", "mut"] rest then go place false (rest.drop 1)
          else operators input fuel place true rest
        | "else" | "in" => ([], first :: rest)
        | _ => operators input fuel place true rest
      | .number | .literal => operators input fuel place false rest
      | .label =>
        if startsWithMarks ":" rest then go place leads (rest.drop 1) else go place false rest
      | .mark =>
        match token.text with
        | "#" => go place leads ((rest.dropWhile (TokenTree.isMark "!")).drop 1)
        -- A closure, whose body is a block when its result is given.
        | "|" =>
          let afterParameters :=
            if startsWithMarks "||" (first :: rest) then rest.drop 1
            else (rest.dropWhile fun tree => !tree.isMark "|").drop 1
          if startsWithMarks "->" afterParameters then
            match (takeUntil atBody 0 (afterParameters.drop 2)).2 with
            | body :: left =>
              let inside := block (statements input fuel) body
              let (nodes, left) := operators input fuel place false left
              (inside :: nodes, left)
            | [] => ([], [])
          else go place false afterParameters
        -- A range without a start, which before a body may have no end either.
        | "." =>
          let left := rest.dropWhile fun tree => tree.isMark "." || tree.isMark "="
          if place.beforeBody && left.head?.any (TokenTree.isGroup '\x7b') then ([], left)
          else go place false left
        | "<" => operators input fuel place true (skipAngles 1 rest)
        | "," | ";" => ([], first :: rest)
        | "=" => if startsWithMarks "=>" (first :: rest) then ([], first :: rest)
          else go place false rest
        | _ => go place false rest
      | _ => go place false rest

/-- An expression from after an operand; `isPath` when the operand may name a macro or a
structure. -/
def operators (input : Input) : Nat → Place → (isPath : Bool) → List TokenTree →
    List SyntaxTree × List TokenTree
  | 0, _, _, _ => ([], [])
  | _ + 1, _, _, [] => ([], [])
  | fuel + 1, place, isPath, first :: rest =>
    let stop : List SyntaxTree × List TokenTree := ([], first :: rest)
    let after (size : Nat) : List TokenTree := (first :: rest).drop size
    match first with
    | .group bracket _ items =>
      -- Braces go on with a path only, as the fields of a structure.
      if bracket == '\x7b' && (place.beforeBody || !isPath) then stop
      else
        let inside := elements input fuel items
        let (nodes, left) := operators input fuel place false rest
        (inside ++ nodes, left)
    | .leaf token =>
      match token.kind with
      | .word =>
        if token.text = "as" then
          operators input fuel place false (skipCastType (rest.length + 1) rest)
        else stop
      | .mark =>
        match token.text with
        | "." =>
          if startsWithMarks ".." (first :: rest) then
            let left := rest.dropWhile fun tree => tree.isMark "." || tree.isMark "="
            if place.beforeBody && left.head?.any (TokenTree.isGroup '\x7b') then ([], left)
            else operand input fuel place false left
          else operators input fuel place false (after 2)
        | "?" =>
          let (nodes, left) := operators input fuel place false rest
          (node "try_expression" token.span [] :: nodes, left)
        | ":" =>
          if startsWithMarks "::" (first :: rest) then
            match after 2 with
            | next :: left =>
              operators input fuel place true
                (if next.isMark "<" then skipAngles 1 left else left)
            | [] => ([], [])
          else stop
        | "!" =>
          if startsWithMarks "!=" (first :: rest) then operand input fuel place false (after 2)
          else if isPath then
            -- A macro, which may give a name before its brackets.
            let left := rest.dropWhile fun tree => tree.word?.isSome
            operators input fuel place false (left.drop 1)
          else stop
        | "&" | "|" =>
          -- Where conditions are chained, `&&` joins them and is no operator.
          let size := operatorSize (first :: rest)
          let operator := String.ofList (marks 2 (first :: rest))
          let (nodes, left) :=
            operand input fuel place false (after size)
          if operator = "||" ∨ (operator = "&&" ∧ !place.isChained ∧
              !startsWithWord ["let"] (after 2)) then
            (lazyFork operator first :: nodes, left)
          else (nodes, left)
        | "=" =>
          if startsWithMarks "=>" (first :: rest) then stop
          else operand input fuel place false (after (operatorSize (first :: rest)))
        | "<" | ">" | "+" | "-" | "*" | "/" | "%" | "^" =>
          operand input fuel place false (after (operatorSize (first :: rest)))
        | _ => stop
      | _ => stop

/-- The condition and the blocks of a conditional after its `if`. -/
def branches (input : Input) : Nat → List TokenTree → List SyntaxTree × List TokenTree
  | 0, _ => ([], [])
  | fuel + 1, trees =>
    let (condition, left) := operand input fuel (.condition false) false trees
    match left with
    | [] => (condition, [])
    | body :: afterBody =>
      let taken := condition ++ [block (statements input fuel) body]
      match afterBody with
      | first :: second :: rest =>
        if first.isWord "else" then
          if second.isWord "if" then
            let (parts, left) := branches input fuel rest
            (taken ++ [node "if_expression" second.span parts], left)
          else (taken ++ [block (statements input fuel) second], rest)
        else (taken, afterBody)
      | _ => (taken, afterBody)

/-- The expressions inside brackets, whatever separates them. -/
def elements (input : Input) : Nat → List TokenTree → List SyntaxTree
  | 0, _ => []
  | _ + 1, [] => []
  | fuel + 1, first :: rest =>
    let (nodes, left) := operand input fuel (.plain false) false (first :: rest)
    nodes ++ elements input fuel (if left.length > rest.length then rest else
      match left with
      | next :: after =>
        if next.isMark "," || next.isMark ";" || next.isMark ":" then after else left
      | [] => [])

/-- The arms of a match. -/
def arms (input : Input) : Nat → List TokenTree → List SyntaxTree
  | 0, _ => []
  | _ + 1, [] => []
  | fuel + 1, first :: rest =>
    if first.isMark "," then arms input fuel rest
    else if first.isMark "#" then arms input fuel (rest.drop 1)
    else
      let atArrow (trees : List TokenTree) : Bool :=
        startsWithMarks "=>" trees || startsWithWord ["if"] trees
      match (takeUntil atArrow 0 (first :: rest)).2 with
      | [] => []
      | next :: after =>
        let (guards, left) :=
          if next.isWord "if" then operand input fuel (.plain false) false after
          else ([], next :: after)
        let (value, left) := operand input fuel .arm true (left.drop 2)
        node "match_arm" first.span (guards ++ value) :: arms input fuel (left.take rest.length)

end

/-- The syntax tree of a source. -/
def parse (source : List Char) : SyntaxTree :=
  let all := tokens source
  let solid := all.filter Token.isSolid
  let outer := (nest all).filterMap fun tree =>
    match tree with
    | .leaf token => if token.kind == .comment then some token else none
    | .group _ _ _ => none
  let input : Input := ⟨source, outer⟩
  ⟨"source_file", true, none, "", 0, source.count '\n',
    statements input (2 * solid.length + 2) (nest solid)⟩

end CodeDelta.Syntax.Rust
