import CodeDelta.Proofs.Outline.Yields
import CodeDelta.Proofs.Syntax.Decorated
import CodeDelta.Proofs.Syntax.Rows
import Mathlib.Data.List.Forall2

/-!
# Where the elements of a Python module stand

Of the definitions among some statements, be they a module's or those of a class's body, one element
is made for each, in their order and on the lines of its statement (`madeOf_filterMap`). In a source
that is parsed, those of a decorated definition start with the first decorator and end with what is
decorated (`StartWithDecorators`). Where the parts of every node follow one another and lie within
the node, the lines of a module's elements ascend, and methods stand on lines of their class
(`ofModule_positions`).
-/

namespace CodeDelta

/-! ## Lines of elements -/

/-- An element stands on the lines from `first` to `last`: it starts on the first of them and
spans as many as it takes to the last. Lines are counted from one. -/
structure Element.Covers (element : Element) (first last : Nat) : Prop where
  /-- The line it starts at. -/
  line : element.line = some first
  /-- The number of lines it spans. -/
  lineCount : ∃ count, element.lineCount = some count ∧ 1 ≤ count ∧ first + count - 1 = last
  /-- Lines are counted from one. -/
  pos : 1 ≤ first

/-- An element stands within the lines of another one. -/
def Element.Within (inner outer : Element) : Prop :=
  ∃ first last top bottom, inner.Covers first last ∧ outer.Covers top bottom ∧ top ≤ first ∧
    last ≤ bottom

/-- Every element starts at a line, counted from one, and none at an earlier one than an element
before it. -/
def LinesAscend (elements : List Element) : Prop :=
  ∃ lines : List Nat, elements.map Element.line = lines.map some ∧ lines.Pairwise (· ≤ ·) ∧
    ∀ line ∈ lines, 1 ≤ line

/-- The lines of a node as an element tells them. -/
theorem Element.Covers.of_node {node : SyntaxTree} {element : Element}
    (forward : node.firstRow ≤ node.lastRow) (line : element.line = some node.line)
    (lineCount : element.lineCount = some node.lineCount) :
    element.Covers node.line (node.lastRow + 1) where
  line := line
  lineCount := by
    refine ⟨node.lineCount, lineCount, ?_, ?_⟩ <;>
      simp only [SyntaxTree.lineCount, SyntaxTree.line] <;> omega
  pos := Nat.le_add_left 1 node.firstRow

/-- Elements that start with nodes in source order start at ascending lines. -/
theorem linesAscend_filterMap {make? : SyntaxTree → Option Element} {nodes : List SyntaxTree}
    (line : ∀ node element, make? node = some element → element.line = some node.line)
    (sorted : nodes.Pairwise fun before after => before.firstRow ≤ after.firstRow) :
    LinesAscend (nodes.filterMap make?) := by
  -- The lines are those of the nodes of which an element is made.
  refine ⟨nodes.filterMap fun node => (make? node).map fun _ => node.line, ?_, ?_, ?_⟩
  · rw [List.map_filterMap, List.map_filterMap]
    refine List.filterMap_congr fun node _ => ?_
    cases made : make? node with
    | none => rfl
    | some element => exact congrArg some (line node element made)
  · refine List.pairwise_filterMap.2 (sorted.imp fun {before after} earlier first hf next hn => ?_)
    obtain ⟨-, -, rfl⟩ := Option.map_eq_some_iff.1 hf
    obtain ⟨-, -, rfl⟩ := Option.map_eq_some_iff.1 hn
    exact Nat.succ_le_succ earlier
  · intro first inside
    obtain ⟨node, -, made⟩ := List.mem_filterMap.1 inside
    obtain ⟨-, -, rfl⟩ := Option.map_eq_some_iff.1 made
    exact Nat.le_add_left 1 node.firstRow

/-! ## Lists made from the members that give something -/

/-- The members that give something, beside what they give. -/
theorem forall₂_filter_filterMap {α β : Type} {p : α → Prop} [DecidablePred p] {f : α → Option β}
    {R : α → β → Prop} {xs : List α} (given : ∀ x ∈ xs, p x → ∃ y, f x = some y ∧ R x y)
    (only : ∀ x y, f x = some y → p x) : List.Forall₂ R (xs.filter p) (xs.filterMap f) := by
  induction xs with
  | nil => exact .nil
  | cons x rest ih =>
    have later := ih fun z inside => given z (List.mem_cons_of_mem x inside)
    rw [List.filter_cons]
    split_ifs with passes
    · obtain ⟨y, gives, related⟩ := given x List.mem_cons_self (of_decide_eq_true passes)
      rw [List.filterMap_cons_some gives]
      exact .cons related later
    · have nothing : f x = none := Option.eq_none_iff_forall_ne_some.2 fun y gives =>
        passes (decide_eq_true (only x y gives))
      rw [List.filterMap_cons_none nothing]
      exact later

namespace Outline.Python

variable {statement definition module_ : SyntaxTree} {element : Element} {category : Category}
  {kind : String}

/-! ## Where the elements stand -/

/-- An element stands where its statement does, which is from the first decorator to the end of the
definition when the definition is decorated. -/
structure Spans (statement definition : SyntaxTree) (element : Element) : Prop where
  /-- The lines of the element are those of the statement. -/
  whole : element.Covers statement.line (statement.lastRow + 1)
  /-- The lines of a decorated definition are those from its first decorator to its end. -/
  decorated : ∀ decorator, Syntax.Python.IsDecorated statement decorator definition →
    element.Covers decorator.line (definition.lastRow + 1)

/-- The elements that the definitions of a kind among some statements make: one for each statement
that holds such a definition, in their order, each on the lines of its own. -/
def MadeOf (kind : String) (make : (definition whole : SyntaxTree) → Element)
    (statements : List SyntaxTree) (elements : List Element) : Prop :=
  List.Forall₂ (fun statement element => ∃ definition, Holds kind statement definition ∧
    make definition statement = element ∧ Spans statement definition element)
    (statements.filter (Defines kind)) elements

/-- Of the elements that the definitions of a kind among some statements make, those of decorated
definitions start with the first decorator and end with what it decorates. -/
def StartWithDecorators (kind : String) (statements : List SyntaxTree) (elements : List Element) :
    Prop :=
  List.Forall₂ (fun statement element => statement.kind = "decorated_definition" →
    ∃ decorator definition,
      statement.children.find? (fun part => part.kind == "decorator") = some decorator ∧
      statement.field? "definition" = some definition ∧
      element.Covers decorator.line (definition.lastRow + 1))
    (statements.filter (Defines kind)) elements

/-- An element with the rows of its statement stands there. -/
theorem spans_of_forward (forward : statement.firstRow ≤ statement.lastRow)
    (line : element.line = some statement.line)
    (lineCount : element.lineCount = some statement.lineCount) :
    Spans statement definition element where
  whole := .of_node forward line lineCount
  decorated decorator made := by
    have first : statement.line = decorator.line := congrArg (· + 1) made.starts
    rw [← made.ends, ← first]
    exact .of_node forward line lineCount

/-- What is made of the statements that hold a definition stands where they do. -/
theorem madeOf_filterMap {make : (definition whole : SyntaxTree) → Element}
    {make? : SyntaxTree → Option Element} {statements : List SyntaxTree}
    (made : ∀ statement element, make? statement = some element ↔
      ∃ definition, Holds kind statement definition ∧ make definition statement = element)
    (line : ∀ definition statement, (make definition statement).line = some statement.line)
    (lineCount : ∀ definition statement,
      (make definition statement).lineCount = some statement.lineCount)
    (forward : ∀ statement ∈ statements, statement.firstRow ≤ statement.lastRow) :
    MadeOf kind make statements (statements.filterMap make?) := by
  refine forall₂_filter_filterMap (fun statement inside defines => ?_) fun statement element h => ?_
  · obtain ⟨definition, holds⟩ := defines
    exact ⟨make definition statement, (made _ _).2 ⟨definition, holds, rfl⟩, definition, holds, rfl,
      spans_of_forward (forward statement inside) (line _ _) (lineCount _ _)⟩
  · obtain ⟨definition, holds, -⟩ := (made _ _).1 h
    exact ⟨definition, holds⟩

/-- Of well-made statements, the elements of decorated definitions start with the decorators. -/
theorem MadeOf.startWithDecorators {make : (definition whole : SyntaxTree) → Element}
    {statements : List SyntaxTree} {elements : List Element}
    (other : kind ≠ "decorated_definition") (made : MadeOf kind make statements elements)
    (wellMade : ∀ statement ∈ statements, Syntax.Python.WellMade statement) :
    StartWithDecorators kind statements elements := by
  have both := (List.forall₂_and_left _ _).2
    ⟨fun statement inside => wellMade statement (List.mem_of_mem_filter inside), made⟩
  refine both.imp ?_
  rintro statement element ⟨well, definition, holds, -, spans⟩ wrapper
  obtain ⟨decorator, wrapped, decorated⟩ := well [] statement rfl wrapper
  have same : wrapped = definition := by
    rcases holds with plain | ⟨-, field, -⟩
    · exact absurd (plain.symm.trans wrapper) other
    · exact Option.some.inj (decorated.field?.symm.trans field)
  subst same
  exact ⟨decorator, wrapped, decorated.find?_decorator, decorated.field?,
    spans.decorated decorator decorated⟩

/-- A definition lies within the statement that holds it. -/
theorem Holds.within (ordered : statement.IsOrdered) (h : Holds kind statement definition) :
    definition.IsOrdered ∧ statement.firstRow ≤ definition.firstRow ∧
      definition.lastRow ≤ statement.lastRow := by
  rcases h.eq_or_mem_children with rfl | inside
  · exact ⟨ordered, le_rfl, le_rfl⟩
  · exact ⟨ordered.child inside, ordered.root.inside definition inside⟩

/-- It is well made when the statement is. -/
theorem Holds.wellMade (wellMade : Syntax.Python.WellMade statement)
    (h : Holds kind statement definition) : Syntax.Python.WellMade definition := by
  rcases h.eq_or_mem_children with rfl | inside
  · exact wellMade
  · exact wellMade.child inside

/-- The statements of a body lie within the definition. -/
theorem within_of_mem_bodyOf {part : SyntaxTree} (ordered : definition.IsOrdered)
    (h : part ∈ bodyOf definition) : part.IsOrdered ∧ definition.firstRow ≤ part.firstRow ∧
      part.lastRow ≤ definition.lastRow := by
  obtain ⟨body, field, below⟩ := mem_bodyOf_iff.1 h
  have inside := SyntaxTree.mem_children_of_field? field
  obtain ⟨top, bottom⟩ := ordered.root.inside body inside
  obtain ⟨first, last⟩ := (ordered.child inside).root.inside part below
  exact ⟨(ordered.child inside).child below, top.trans first, last.trans bottom⟩

/-- They are well made when the definition is. -/
theorem wellMade_of_mem_bodyOf {part : SyntaxTree} (wellMade : Syntax.Python.WellMade definition)
    (h : part ∈ bodyOf definition) : Syntax.Python.WellMade part := by
  obtain ⟨body, field, below⟩ := mem_bodyOf_iff.1 h
  exact (wellMade.child (SyntaxTree.mem_children_of_field? field)).child below

/-- An element starts on the first line of the statement that yields it. -/
theorem Yields.line (h : Yields statement category element) :
    element.line = some statement.line := by
  rcases h with holds | holds | import_ <;> rfl

/-- The methods of a class stand where the statements of its body do. -/
theorem madeOf_methods (ordered : definition.IsOrdered) (whole : SyntaxTree) :
    MadeOf "function_definition" function (bodyOf definition)
      (classOf definition whole).methods := by
  rw [methods_classOf]
  exact madeOf_filterMap (fun _ _ => method?_eq_some_iff) (fun _ _ => rfl) (fun _ _ => rfl)
    fun _ inside => (within_of_mem_bodyOf ordered inside).1.root.forward

/-- The methods of a class stand within its lines. -/
theorem within_of_mem_methods (ordered : statement.IsOrdered)
    (holds : Holds "class_definition" statement definition)
    (h : element ∈ (classOf definition statement).methods) :
    element.Within (classOf definition statement) := by
  obtain ⟨inner, first, last⟩ := holds.within ordered
  rw [methods_classOf] at h
  obtain ⟨part, inside, made⟩ := List.mem_filterMap.1 h
  obtain ⟨_, -, rfl⟩ := method?_eq_some_iff.1 made
  obtain ⟨below, top, bottom⟩ := within_of_mem_bodyOf inner inside
  -- The part lies in the body, the body in the definition, and the definition in the statement.
  refine ⟨part.line, part.lastRow + 1, statement.line, statement.lastRow + 1,
    .of_node below.root.forward rfl rfl, .of_node ordered.root.forward rfl rfl, ?_, ?_⟩
  · exact Nat.succ_le_succ (first.trans top)
  · exact Nat.succ_le_succ (bottom.trans last)

/-- Every function, class and import of a module yields one element on its own lines, nothing else
yields any, and the methods of a class are the functions in its body, on lines of the class. The
elements and methods of decorated definitions in a source start with their first decorators. -/
theorem ofModule_positions (path : String) {module_ : SyntaxTree} (ordered : module_.IsOrdered) :
    let outline := ofModule path module_
    MadeOf "function_definition" function module_.children outline.functions ∧
      MadeOf "class_definition" classOf module_.children outline.classes ∧
      List.Forall₂ (fun statement element =>
          element = .ofImport (Text.collapse statement.text) statement.line)
        (module_.children.filter IsImport) outline.imports ∧
      (outline.elementCount = module_.children.countP fun statement =>
        Defines "function_definition" statement ∨ Defines "class_definition" statement ∨
          IsImport statement) ∧
      (∀ category, LinesAscend (outline.elements category)) ∧
      (∀ statement ∈ module_.children, ∀ definition,
        Holds "class_definition" statement definition →
        let owner := classOf definition statement
        MadeOf "function_definition" function (bodyOf definition) owner.methods ∧
          ∀ method ∈ owner.methods, method.Within owner) ∧
      ∀ source, Syntax.Python.parse source = module_ →
        StartWithDecorators "function_definition" module_.children outline.functions ∧
        StartWithDecorators "class_definition" module_.children outline.classes ∧
        ∀ statement ∈ module_.children, ∀ definition,
          Holds "class_definition" statement definition →
          StartWithDecorators "function_definition" (bodyOf definition)
            (classOf definition statement).methods := by
  intro outline
  have forward : ∀ statement ∈ module_.children, statement.firstRow ≤ statement.lastRow :=
    fun statement inside => (ordered.child inside).root.forward
  have listed (category : Category) : outline.elements category = elements category module_ := by
    cases category <;> rfl
  have functions : MadeOf "function_definition" function module_.children outline.functions := by
    rw [show outline.functions = _ from elements_eq_filterMap .function module_]
    exact madeOf_filterMap (fun _ _ => elementIn?_eq_some_iff.trans yields_function_iff)
      (fun _ _ => rfl) (fun _ _ => rfl) forward
  have classes : MadeOf "class_definition" classOf module_.children outline.classes := by
    rw [show outline.classes = _ from elements_eq_filterMap .classDef module_]
    exact madeOf_filterMap (fun _ _ => elementIn?_eq_some_iff.trans yields_classDef_iff)
      (fun _ _ => rfl) (fun _ _ => rfl) forward
  have methods (statement : SyntaxTree) (inside : statement ∈ module_.children)
      (definition : SyntaxTree) (holds : Holds "class_definition" statement definition) :
      MadeOf "function_definition" function (bodyOf definition)
        (classOf definition statement).methods :=
    madeOf_methods (holds.within (ordered.child inside)).1 statement
  refine ⟨functions, classes, ?_, elementCount_ofModule path module_, fun category => ?_, ?_, ?_⟩
  · rw [show outline.imports = _ from elements_eq_filterMap .importDecl module_]
    refine forall₂_filter_filterMap (fun statement _ import_ => ?_) fun statement element made => ?_
    · exact ⟨_, elementIn?_eq_some_iff.2 (.importDecl import_), rfl⟩
    · rcases elementIn?_eq_some_iff.1 made with - | - | import_
      exact import_
  · rw [listed, elements_eq_filterMap]
    exact linesAscend_filterMap (fun _ _ made => (elementIn?_eq_some_iff.1 made).line)
      ordered.pairwise_firstRow
  · exact fun statement inside definition holds => ⟨methods statement inside definition holds,
      fun _ isMethod => within_of_mem_methods (ordered.child inside) holds isMethod⟩
  · rintro source rfl
    have wellMade : ∀ statement ∈ (Syntax.Python.parse source).children,
        Syntax.Python.WellMade statement :=
      fun _ inside => (Syntax.Python.wellMade_parse source).child inside
    refine ⟨functions.startWithDecorators (by decide) wellMade,
      classes.startWithDecorators (by decide) wellMade, fun statement inside definition holds => ?_⟩
    exact (methods statement inside definition holds).startWithDecorators (by decide)
      fun _ => wellMade_of_mem_bodyOf (holds.wellMade (wellMade statement inside))

/-- A function and a class behind decorators start with these, and so does a method. -/
theorem ofModule_positions_decorated :
    let module_ := Syntax.Python.parse
      ("import os\n@cache\n@trace\ndef area(r):\n    return r\n" ++
        "@final\nclass A:\n    @property\n    def w(self):\n        pass\n").toList
    let outline := ofModule "a.py" module_
    (module_.IsOrdered ∧
      (module_.children.map SyntaxTree.kind) =
        ["import_statement", "decorated_definition", "decorated_definition"] ∧
      (outline.functions.map fun element => (element.name, element.line, element.lineCount)) =
        [("area", some 2, some 4)] ∧
      (outline.classes.map fun owner => (owner.name, owner.line, owner.lineCount)) =
        [("A", some 6, some 5)]) ∧
      MadeOf "function_definition" function module_.children outline.functions ∧
      StartWithDecorators "function_definition" module_.children outline.functions ∧
      StartWithDecorators "class_definition" module_.children outline.classes ∧
      ∀ statement ∈ module_.children, ∀ definition, Holds "class_definition" statement definition →
        let owner := classOf definition statement
        MadeOf "function_definition" function (bodyOf definition) owner.methods ∧
          (∀ method ∈ owner.methods, method.Within owner) ∧
          StartWithDecorators "function_definition" (bodyOf definition) owner.methods := by
  intro module_ outline
  have computed : module_.IsOrdered ∧
      (module_.children.map SyntaxTree.kind) =
        ["import_statement", "decorated_definition", "decorated_definition"] ∧
      (outline.functions.map fun element => (element.name, element.line, element.lineCount)) =
        [("area", some 2, some 4)] ∧
      (outline.classes.map fun owner => (owner.name, owner.line, owner.lineCount)) =
        [("A", some 6, some 5)] := by
    decide +kernel
  obtain ⟨functions, -, -, -, -, methods, decorated⟩ := ofModule_positions "a.py" computed.1
  obtain ⟨first, second, inner⟩ := decorated _ rfl
  refine ⟨computed, functions, first, second, fun statement inside definition holds => ?_⟩
  obtain ⟨made, within⟩ := methods statement inside definition holds
  exact ⟨made, within, inner statement inside definition holds⟩

end Outline.Python

end CodeDelta
