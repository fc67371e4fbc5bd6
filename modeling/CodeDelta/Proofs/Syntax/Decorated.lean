import CodeDelta.Proofs.Syntax.Places
import CodeDelta.Syntax.PythonTree
import Mathlib.Tactic.SplitIfs

/-!
# Decorated definitions

A decorated definition starts with its first decorator and ends with what is decorated, and only
that fills the field for it (`IsDecorated`). Every decorated definition in the tree of a source is
made so, wherever it stands (`exists_isDecorated_of_parse`): what a line is made of holds none
(`Undecorated`), and the statements of lines are put together from such parts (`IsStatement`).
-/

namespace CodeDelta.Syntax.Python

/-- How a decorated definition is made of its decorators, which may have comments between them, and
of the definition behind them. -/
structure IsDecorated (statement decorator definition : SyntaxTree) : Prop where
  /-- A decorator comes first. -/
  decorates : decorator.kind = "decorator"
  /-- The definition fills its field. -/
  fills : definition.role = some "definition"
  /-- The definition comes last, and nothing before it fills its field. -/
  parts : ∃ between, statement.children = decorator :: (between ++ [definition]) ∧
    ∀ part ∈ decorator :: between, part.role ≠ some "definition"
  /-- The rows start with those of the decorator. -/
  starts : statement.firstRow = decorator.firstRow
  /-- The rows end with those of the definition. -/
  ends : statement.lastRow = definition.lastRow

/-- A node that is made so if it is a decorated definition. -/
def WellDecorated (node : SyntaxTree) : Prop :=
  node.kind = "decorated_definition" → ∃ decorator definition, IsDecorated node decorator definition

/-- A tree in which every node is made so. -/
def WellMade (tree : SyntaxTree) : Prop :=
  ∀ place node, tree.at? place = some node → WellDecorated node

/-- A tree without decorated definitions. -/
def Undecorated (tree : SyntaxTree) : Prop :=
  ∀ place node, tree.at? place = some node → node.kind ≠ "decorated_definition"

/-- A well-made tree that fills no field yet. -/
structure IsStatement (tree : SyntaxTree) : Prop where
  /-- It fills no field. -/
  role : tree.role = none
  /-- Its decorated definitions are made as they should. -/
  wellMade : WellMade tree

variable {source : List Char} {tree statement decorator definition : SyntaxTree} {kind : String}

/-- The definition is what the field holds. -/
theorem IsDecorated.field? (h : IsDecorated statement decorator definition) :
    statement.field? "definition" = some definition := by
  obtain ⟨between, split, before⟩ := h.parts
  have none_before : (decorator :: between).find? (fun part => part.role == some "definition") =
      none := List.find?_eq_none.2 fun part inside same => before part inside (eq_of_beq same)
  unfold SyntaxTree.field?
  rw [split, ← List.cons_append, List.find?_append, none_before, Option.none_or]
  exact List.find?_cons_of_pos (beq_iff_eq.2 h.fills)

/-- No decorator stands before it. -/
theorem IsDecorated.find?_decorator (h : IsDecorated statement decorator definition) :
    statement.children.find? (fun part => part.kind == "decorator") = some decorator := by
  obtain ⟨between, split, -⟩ := h.parts
  rw [split]
  exact List.find?_cons_of_pos (beq_iff_eq.2 h.decorates)

/-- A tree is well made when its root and its children are. -/
theorem wellMade_iff :
    WellMade tree ↔ WellDecorated tree ∧ ∀ child ∈ tree.children, WellMade child :=
  SyntaxTree.forall_at?_iff_children

/-- The children of a well-made tree are well made. -/
theorem WellMade.child (h : WellMade tree) (inside : statement ∈ tree.children) :
    WellMade statement :=
  (wellMade_iff.1 h).2 statement inside

/-- A tree has no decorated definition when its root is none and its children have none. -/
theorem undecorated_iff : Undecorated tree ↔ tree.kind ≠ "decorated_definition" ∧
    ∀ child ∈ tree.children, Undecorated child :=
  SyntaxTree.forall_at?_iff_children

/-- Where there are no decorated definitions, all of them are well made. -/
theorem Undecorated.wellMade (h : Undecorated tree) : WellMade tree :=
  fun place node found wrapper => absurd wrapper (h place node found)

/-- The role of a tree does not matter for what it holds. -/
theorem Undecorated.withRole (role : String) (h : Undecorated tree) :
    Undecorated (tree.withRole role) :=
  undecorated_iff.2 ⟨(undecorated_iff.1 h).1, (undecorated_iff.1 h).2⟩

/-! ## The parts of lines -/

/-- A node over trees holds none when it is none and its children hold none. -/
theorem undecorated_nodeOver {trees : List TokenTree} {children : List SyntaxTree}
    (other : kind ≠ "decorated_definition") (h : ∀ child ∈ children, Undecorated child) :
    Undecorated (nodeOver kind trees children) :=
  undecorated_iff.2 ⟨other, h⟩

/-- Nor does a node that shows its text. -/
theorem undecorated_shownNode {trees : List TokenTree} {children : List SyntaxTree}
    (other : kind ≠ "decorated_definition") (h : ∀ child ∈ children, Undecorated child) :
    Undecorated (shownNode source kind trees children) :=
  undecorated_iff.2 ⟨other, h⟩

/-- A fork is none. -/
theorem undecorated_forkAt {token : Token} (other : kind ≠ "decorated_definition") :
    Undecorated (forkAt kind token) :=
  undecorated_iff.2 ⟨other, List.forall_mem_nil _⟩

mutual

/-- The forks in an expression hold none. -/
theorem undecorated_forksIn :
    ∀ trees : List TokenTree, ∀ node ∈ (forksIn trees).1, Undecorated node
  | [] => List.forall_mem_nil _
  | .leaf token :: rest => by
    have later := undecorated_forksIn rest
    intro node inside
    unfold forksIn at inside
    dsimp only at inside
    -- A word either adds a fork of its own kind or leaves the forks behind it as they are.
    split_ifs at inside
    all_goals first
      | exact later node inside
      | obtain rfl | inside := List.mem_cons.1 inside
        · exact undecorated_forkAt (by decide)
        · exact later node inside
  | .group bracket span items :: rest => by
    have later := undecorated_forksIn rest
    have within := undecorated_forksInside (.group bracket span items)
    intro node inside
    unfold forksIn at inside
    exact (List.mem_append.1 inside).elim (within node) (later node)

/-- The forks inside brackets hold none. -/
theorem undecorated_forksInside :
    ∀ tree : TokenTree, ∀ node ∈ forksInside tree, Undecorated node
  | .group _ _ items => by
    have within := undecorated_forksIn items
    unfold forksInside
    exact within
  | .leaf _ => by
    unfold forksInside
    exact List.forall_mem_nil _

end

/-- What is done to an operand makes no decorated definition. -/
theorem trailerKind_ne (other : kind ≠ "decorated_definition") (trees : List TokenTree) :
    trailerKind kind trees ≠ "decorated_definition" := by
  fun_induction trailerKind kind trees with
  | case1 => exact other
  | case2 _ _ _ _ _ _ ih | case3 _ _ _ _ _ _ _ ih | case5 _ _ _ _ _ ih => exact ih (by decide)
  | case4 | case6 | case7 => decide

/-- An argument is no decorated definition. -/
theorem argumentKind_ne (trees : List TokenTree) :
    argumentKind trees ≠ "decorated_definition" := by
  unfold argumentKind
  split
  · split
    · split_ifs
      · exact trailerKind_ne (by decide) _
      · decide
      · exact trailerKind_ne (by decide) _
    · exact trailerKind_ne (by decide) _
    · exact trailerKind_ne (by decide) _
    · decide
  · exact trailerKind_ne (by decide) _
  · decide

/-- The arguments of a class hold none. -/
theorem undecorated_arguments (items : List TokenTree) :
    ∀ node ∈ arguments source items, Undecorated node := by
  intro node inside
  obtain ⟨piece, -, rfl⟩ := List.mem_map.1 inside
  exact undecorated_shownNode (argumentKind_ne piece) (undecorated_forksIn piece)

/-- A statement on one line holds none. -/
theorem undecorated_simpleStatement (trees : List TokenTree) :
    Undecorated (simpleStatement source trees) := by
  have nothing : ∀ child ∈ ([] : List SyntaxTree), Undecorated child :=
    List.forall_mem_nil _
  unfold simpleStatement
  split
  · split_ifs
    · exact undecorated_shownNode (by decide) nothing
    · exact undecorated_shownNode (by decide) nothing
    · exact undecorated_shownNode (by decide) nothing
    · exact undecorated_nodeOver (by decide) (undecorated_forksIn _)
    · exact undecorated_nodeOver (by decide) (undecorated_forksIn _)
  · exact undecorated_nodeOver (by decide) (undecorated_forksIn _)

/-- A function's header holds none. -/
theorem undecorated_functionParts (trees : List TokenTree) :
    ∀ node ∈ functionParts source trees, Undecorated node := by
  have shown (kind role : String) (trees : List TokenTree) (other : kind ≠ "decorated_definition") :
      Undecorated ((shownNode source kind trees (forks trees)).withRole role) :=
    (undecorated_shownNode other (undecorated_forksIn trees)).withRole role
  cases trees with
  | nil => exact List.forall_mem_nil _
  | cons name rest =>
    unfold functionParts
    intro node inside
    simp only [List.mem_append, List.mem_singleton, List.mem_ite_nil_left] at inside
    rcases inside with (rfl | ⟨-, rfl⟩) | ⟨-, rfl⟩
    · exact (undecorated_shownNode (by decide) (List.forall_mem_nil _)).withRole _
    · exact shown _ _ _ (by decide)
    · exact shown _ _ _ (by decide)

/-- A class's header holds none. -/
theorem undecorated_classParts (trees : List TokenTree) :
    ∀ node ∈ classParts source trees, Undecorated node := by
  cases trees with
  | nil => exact List.forall_mem_nil _
  | cons name rest =>
    unfold classParts
    intro node inside
    rcases List.mem_append.1 inside with first | later
    · obtain rfl := List.mem_singleton.1 first
      exact (undecorated_shownNode (by decide) (List.forall_mem_nil _)).withRole _
    · split at later
      · obtain rfl := List.mem_singleton.1 later
        exact (undecorated_nodeOver (by decide) (undecorated_arguments _)).withRole _
      · exact absurd later List.not_mem_nil

/-- A header holds none. -/
theorem undecorated_headerParts (header : Header) (trees : List TokenTree) :
    ∀ node ∈ headerParts source header trees, Undecorated node := by
  unfold headerParts
  split
  · intro node inside
    rcases List.mem_cons.1 inside with rfl | later
    · have other : "async" ≠ "decorated_definition" := by decide
      exact undecorated_iff.2 ⟨other, List.forall_mem_nil _⟩
    · exact undecorated_functionParts _ node later
  · exact undecorated_functionParts _
  · exact undecorated_classParts _
  · exact undecorated_forksIn _
  · exact undecorated_forksIn _

/-- No header starts a decorated definition. -/
theorem kind_of_headerOf? {inChoice : Bool} {trees : List TokenTree} {header : Header}
    (h : headerOf? inChoice trees = some header) : header.kind ≠ "decorated_definition" := by
  unfold headerOf? at h
  dsimp only at h
  split at h
  -- The kind is a literal, or one of two that the word after the first decides between.
  all_goals first
    | obtain rfl := Option.some.inj h
      first
        | decide
        | unfold Header.kind; dsimp only; split_ifs <;> decide
    | split_ifs at h
      all_goals
        obtain rfl := Option.some.inj h
        decide
    | exact absurd h (Option.some_ne_none _).symm

/-! ## Statements -/

/-- A node of another kind is a statement when it fills no field and its parts are well made. -/
theorem IsStatement.of_children (role : tree.role = none)
    (other : tree.kind ≠ "decorated_definition") (h : ∀ child ∈ tree.children, WellMade child) :
    IsStatement tree where
  role := role
  wellMade := wellMade_iff.2 ⟨fun wrapper => absurd wrapper other, h⟩

/-- The statements of one line are such. -/
theorem isStatement_simpleStatements (trees : List TokenTree) :
    ∀ node ∈ simpleStatements source trees, IsStatement node := by
  intro node inside
  obtain ⟨piece, -, rfl⟩ := List.mem_map.1 inside
  refine ⟨?_, (undecorated_simpleStatement piece).wellMade⟩
  unfold simpleStatement
  split
  · split_ifs <;> rfl
  · rfl

/-- So is a statement that took on the clauses behind it, with all that follows. -/
theorem isStatement_adopt {node : SyntaxTree} {pending following : List SyntaxTree}
    (other : node.kind ≠ "decorated_definition") (hn : IsStatement node)
    (hp : ∀ comment ∈ pending, IsStatement comment) (hf : ∀ next ∈ following, IsStatement next) :
    ∀ made ∈ adopt node pending following, IsStatement made := by
  induction following generalizing node pending with
  | nil => exact List.forall_mem_cons.2 ⟨hn, hp⟩
  | cons next rest ih =>
    obtain ⟨first, later⟩ := List.forall_mem_cons.1 hf
    have longer : ∀ part ∈ pending ++ [next], IsStatement part :=
      List.forall_mem_append.2 ⟨hp, List.forall_mem_singleton.2 first⟩
    unfold adopt
    split_ifs
    · exact ih other hn longer later
    -- The clause becomes a part of the statement, behind the comments that were pending.
    · refine ih other (.of_children hn.role other ?_) (List.forall_mem_nil _) later
      rw [List.append_assoc]
      exact List.forall_mem_append.2 ⟨(wellMade_iff.1 hn.wellMade).2,
        fun part inside => (longer part inside).wellMade⟩
    · exact List.forall_mem_cons.2 ⟨hn, List.forall_mem_append.2 ⟨hp, hf⟩⟩

/-- What a decorator and a definition are put together to is made as it should; decorators behind
one another make one decorated definition. -/
theorem wellDecorated_decorate {comments : List SyntaxTree}
    (decorates : decorator.kind = "decorator") (hd : IsStatement decorator)
    (hc : ∀ comment ∈ comments, IsStatement comment) (hs : IsStatement definition) :
    WellDecorated ⟨"decorated_definition", true, none, "", decorator.firstRow, definition.lastRow,
      decorator :: (comments ++ if definition.kind = "decorated_definition" then definition.children
        else [definition.withRole "definition"])⟩ := by
  have free : ∀ part ∈ decorator :: comments, part.role ≠ some "definition" :=
    List.forall_mem_cons.2 ⟨by rw [hd.role]; exact (Option.some_ne_none _).symm,
      fun comment inside => by rw [(hc comment inside).role]; exact (Option.some_ne_none _).symm⟩
  intro _
  split_ifs with wrapper
  -- The parts of a decorated definition are taken over, so that its decorator is one among several.
  · obtain ⟨inner, target, made⟩ := (wellMade_iff.1 hs.wellMade).1 wrapper
    obtain ⟨between, split, before⟩ := made.parts
    refine ⟨decorator, target, decorates, made.fills, ⟨comments ++ inner :: between, ?_, ?_⟩, rfl,
      made.ends⟩
    · rw [split, List.append_assoc, List.cons_append]
    · exact List.forall_mem_append.2 ⟨free, before⟩
  · exact ⟨decorator, definition.withRole "definition", decorates, rfl, ⟨comments, rfl, free⟩, rfl,
      rfl⟩

/-- A decorator makes a decorated definition of the statement that it stands before. -/
theorem isStatement_decorate {following : List SyntaxTree}
    (decorates : decorator.kind = "decorator") (hd : IsStatement decorator)
    (hf : ∀ next ∈ following, IsStatement next) :
    ∀ made ∈ decorate decorator following, IsStatement made := by
  unfold decorate
  dsimp only
  split
  · exact List.forall_mem_cons.2 ⟨hd, hf⟩
  · next definition rest split =>
    have hc : ∀ comment ∈ following.takeWhile isCommentNode, IsStatement comment :=
      fun comment inside => hf comment (List.takeWhile_subset _ inside)
    have hs : ∀ next ∈ definition :: rest, IsStatement next := by
      rw [← split]
      exact fun next inside => hf next (List.mem_of_mem_drop inside)
    obtain ⟨first, later⟩ := List.forall_mem_cons.1 hs
    have below := (wellMade_iff.1 first.wellMade).2
    refine List.forall_mem_cons.2 ⟨⟨rfl, wellMade_iff.2
      ⟨wellDecorated_decorate decorates hd hc first, ?_⟩⟩, later⟩
    refine List.forall_mem_cons.2 ⟨hd.wellMade, List.forall_mem_append.2
      ⟨fun comment inside => (hc comment inside).wellMade, ?_⟩⟩
    split_ifs with wrapper
    · exact below
    · exact List.forall_mem_singleton.2
        (wellMade_iff.2 ⟨fun wrapped => absurd wrapped wrapper, below⟩)

/-- So is the statement that a header starts with the block under it. -/
theorem isStatement_close {head : SyntaxTree} {block following : List SyntaxTree} {isClause : Bool}
    {firstRow lastRow : Nat} (other : head.kind ≠ "decorated_definition") (hh : IsStatement head)
    (hb : ∀ inner ∈ block, IsStatement inner) (hf : ∀ next ∈ following, IsStatement next) :
    let node := { head with
      lastRow := lastRow
      children := head.children ++ [⟨"block", true, some "body", "", firstRow, lastRow, block⟩] }
    ∀ made ∈ if isClause = true then node :: following else adopt node [] following,
      IsStatement made := by
  intro node
  have bare : "block" ≠ "decorated_definition" := by decide
  have body : WellMade ⟨"block", true, some "body", "", firstRow, lastRow, block⟩ :=
    wellMade_iff.2 ⟨fun wrapper => absurd wrapper bare,
      fun inner inside => (hb inner inside).wellMade⟩
  have closed : IsStatement node := .of_children hh.role other
    (List.forall_mem_append.2 ⟨(wellMade_iff.1 hh.wellMade).2, List.forall_mem_singleton.2 body⟩)
  split_ifs
  · exact List.forall_mem_cons.2 ⟨closed, hf⟩
  · exact isStatement_adopt other closed (List.forall_mem_nil _) hf

/-- The statements of lines are such. -/
theorem isStatement_statements (fuel : Nat) (inChoice : Bool) (lines : List Line) :
    ∀ node ∈ statements source fuel inChoice lines, IsStatement node := by
  induction fuel generalizing inChoice lines with
  | zero => exact List.forall_mem_nil _
  | succ fuel ih =>
    cases lines with
    | nil => exact List.forall_mem_nil _
    | cons line rest =>
      have leaf (kind : String) (children : List SyntaxTree) (other : kind ≠ "decorated_definition")
          (h : ∀ child ∈ children, Undecorated child) :
          IsStatement (nodeOver kind line.items children) :=
        .of_children rfl other fun child inside => (h child inside).wellMade
      unfold statements
      split_ifs
      · exact List.forall_mem_cons.2 ⟨leaf _ _ (by decide) (List.forall_mem_nil _), ih _ _⟩
      · exact isStatement_decorate rfl (leaf _ _ (by decide) (undecorated_forksIn _)) (ih _ _)
      · split
        · exact List.forall_mem_append.2 ⟨isStatement_simpleStatements _, ih _ _⟩
        · next header found =>
          have head := leaf header.kind (headerParts source header (splitHeader 0 line.items).1)
            (kind_of_headerOf? found) (undecorated_headerParts header _)
          dsimp only
          split
          · exact isStatement_close (kind_of_headerOf? found) head (ih _ _) (ih _ _)
          · exact isStatement_close (kind_of_headerOf? found) head (isStatement_simpleStatements _)
              (ih _ _)

/-- The tree of a source is well made. -/
theorem wellMade_parse (source : List Char) : WellMade (parse source) := by
  have other : "module" ≠ "decorated_definition" := by decide
  have whole : IsStatement (parse source) := .of_children rfl other fun child inside =>
    (isStatement_statements _ _ _ child inside).wellMade
  exact whole.wellMade

/-- Every decorated definition of a source is made of its decorators and a definition. -/
theorem exists_isDecorated_of_parse (source : List Char) {place : List Nat}
    (found : (parse source).at? place = some statement)
    (wrapper : statement.kind = "decorated_definition") :
    ∃ decorator definition, IsDecorated statement decorator definition :=
  wellMade_parse source place statement found wrapper

end CodeDelta.Syntax.Python
