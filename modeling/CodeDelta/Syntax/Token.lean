/-!
# Tokens and their nesting

Tokens with the place they stand at, and the trees that brackets make of them. A scanner is given
by one step, which says how long the next token is; the scan applies it along the source and keeps
count of places. Inside brackets blanks, comments and line ends are dropped, outside they are kept.
-/

namespace CodeDelta.Syntax

/-- What a token is. -/
inductive TokenKind where
  /-- A name or keyword. -/
  | word
  /-- A number literal. -/
  | number
  /-- A string or character literal. -/
  | literal
  /-- A label or lifetime. -/
  | label
  /-- An operator or separator. -/
  | mark
  /-- An opening bracket. -/
  | opening
  /-- A closing bracket. -/
  | closing
  /-- The end of a line. -/
  | lineEnd
  /-- A comment. -/
  | comment
  /-- Blanks. -/
  | blank
deriving DecidableEq, Repr, Inhabited

/-- Where a part of the source stands: character positions and rows, both from zero. -/
structure Span where
  /-- The position of the first character. -/
  start : Nat
  /-- The position after the last character. -/
  stop : Nat
  /-- The row of the first character. -/
  firstRow : Nat
  /-- The row of the end. -/
  lastRow : Nat
deriving DecidableEq, Repr, Inhabited

/-- From the start of one part to the end of another. -/
def Span.to (first last : Span) : Span := ⟨first.start, last.stop, first.firstRow, last.lastRow⟩

/-- A token. -/
structure Token where
  /-- What it is. -/
  kind : TokenKind
  /-- Its characters. -/
  text : String
  /-- Where it stands. -/
  span : Span
deriving DecidableEq, Repr, Inhabited

/-- The characters of a part. -/
def slice (source : List Char) (span : Span) : String :=
  String.ofList ((source.drop span.start).take (span.stop - span.start))

/-- One step of a scanner: from its state and the rest of the source, which is not empty, the kind
of the next token, its length, and the state after it. -/
abbrev Step (σ : Type) := σ → List Char → TokenKind × Nat × σ

/-- The tokens of a source. Every token has at least one character, so `fuel` need not exceed the
length of the source. -/
def scan (step : Step σ) : Nat → σ → (position row : Nat) → List Char → List Token
  | 0, _, _, _, _ => []
  | _ + 1, _, _, _, [] => []
  | fuel + 1, state, position, row, source =>
    let (kind, length, next) := step state source
    let length := max length 1
    let text := source.take length
    let lastRow := row + text.count '\n'
    ⟨kind, String.ofList text, ⟨position, position + text.length, row, lastRow⟩⟩ ::
      scan step fuel next (position + text.length) lastRow (source.drop length)

/-- Tokens nested by brackets. -/
inductive TokenTree where
  /-- A token that is no bracket. -/
  | leaf (token : Token)
  /-- What stands between brackets, with the place of the whole. -/
  | group (bracket : Char) (span : Span) (items : List TokenTree)
deriving Repr, Inhabited

namespace TokenTree

/-- Where a tree stands. -/
def span : TokenTree → Span
  | leaf token => token.span
  | group _ span _ => span

/-- Whether a tree is the word `text`. -/
def isWord (text : String) : TokenTree → Bool
  | leaf token => token.kind == .word && token.text == text
  | group _ _ _ => false

/-- Whether a tree is the mark `text`. -/
def isMark (text : String) : TokenTree → Bool
  | leaf token => token.kind == .mark && token.text == text
  | group _ _ _ => false

/-- The text of a word. -/
def word? : TokenTree → Option String
  | leaf token => if token.kind == .word then some token.text else none
  | group _ _ _ => none

/-- Whether a tree is a group in these brackets. -/
def isGroup (bracket : Char) : TokenTree → Bool
  | group other _ _ => other == bracket
  | leaf _ => false

end TokenTree

/-- An open bracket: its token, and what stood before it, last first. -/
structure OpenGroup where
  /-- The opening token. -/
  opening : Token
  /-- The trees before the bracket, last first. -/
  before : List TokenTree

/-- The last character of an opening token tells its brackets apart. -/
def bracketOf (token : Token) : Char :=
  match token.text.toList.getLast? with
  | some '\'' => '"'
  | some c => c
  | none => ' '

/-- Closes the innermost bracket at a token. -/
def closeGroup (opened : OpenGroup) (items : List TokenTree) (last : Span) : List TokenTree :=
  .group (bracketOf opened.opening) (opened.opening.span.to last) items.reverse :: opened.before

/-- Whether a token matters inside brackets. -/
def Token.isSolid (token : Token) : Bool :=
  match token.kind with
  | .blank | .comment | .lineEnd => false
  | _ => true

/-- Closes every bracket that the end of the source leaves open. -/
def closeAll (last : Span) : List OpenGroup → List TokenTree → List TokenTree
  | [], items => items.reverse
  | opened :: outer, items => closeAll last outer (closeGroup opened items last)

/-- Nests tokens; `items` holds the trees of the innermost open bracket, last first. -/
def nestFrom (last : Span) : List OpenGroup → List TokenTree → List Token → List TokenTree
  | opened, items, [] => closeAll last opened items
  | opened, items, token :: rest =>
    match token.kind, opened with
    | .opening, _ => nestFrom token.span (⟨token, items⟩ :: opened) [] rest
    | .closing, innermost :: outer =>
      nestFrom token.span outer (closeGroup innermost items token.span) rest
    | .closing, [] => nestFrom token.span [] items rest
    | _, [] => nestFrom token.span [] (.leaf token :: items) rest
    | _, _ :: _ =>
      if token.isSolid then nestFrom token.span opened (.leaf token :: items) rest
      else nestFrom last opened items rest

/-- Nests tokens by their brackets. -/
def nest (tokens : List Token) : List TokenTree := nestFrom ⟨0, 0, 0, 0⟩ [] [] tokens

/-- The pieces of a list between the trees that `isMark` finds. -/
def splitTrees (isMark : TokenTree → Bool) : List TokenTree → List (List TokenTree)
  | [] => [[]]
  | tree :: rest =>
    if isMark tree then [] :: splitTrees isMark rest
    else
      match splitTrees isMark rest with
      | piece :: pieces => (tree :: piece) :: pieces
      | [] => [[tree]]

/-- From the first of some trees to the last of them. -/
def spanOf : List TokenTree → Span
  | [] => ⟨0, 0, 0, 0⟩
  | first :: rest => first.span.to ((rest.getLast?.getD first).span)

end CodeDelta.Syntax
