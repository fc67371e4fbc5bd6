import CodeDelta.Outline.PythonElements
import Mathlib.Algebra.GroupWithZero.Nat
import Mathlib.Tactic.SplitIfs

/-!
# What the statements of a Python module yield

A statement of a module yields a function or a class when it holds a definition of one, plain or
decorated, and an import when it is one; nothing else yields anything (`element?_eq_some_iff`). The
elements of a category are those that the statements yield there (`mem_elements_iff`), each of them
one (`elementCount_ofModule`), and the methods of a class are the functions that the statements of
its body hold (`methods_classOf`, `method?_eq_some_iff`).
-/

namespace CodeDelta.Outline.Python

variable {statement definition module_ : SyntaxTree} {element : Element} {category : Category}
  {kind : String}

/-! ## Statements -/

/-- A statement holds a definition of a kind, plain or decorated. -/
inductive Holds (kind : String) (statement : SyntaxTree) : SyntaxTree → Prop
  /-- The statement is the definition. -/
  | plain : statement.kind = kind → Holds kind statement statement
  /-- The statement decorates the definition. -/
  | decorated {definition : SyntaxTree} :
    statement.kind = "decorated_definition" → statement.field? "definition" = some definition →
      definition.kind = kind → Holds kind statement definition

/-- Whether a statement holds a definition of a kind. -/
def Defines (kind : String) (statement : SyntaxTree) : Prop :=
  ∃ definition, Holds kind statement definition

/-- Whether a statement is an import. -/
def IsImport (statement : SyntaxTree) : Prop :=
  statement.kind ∈ ["import_statement", "import_from_statement", "future_import_statement"]

/-- The definition that a statement holds is the statement itself or fills its field. -/
theorem defines_iff : Defines kind statement ↔
    statement.kind = kind ∨ statement.kind = "decorated_definition" ∧
      ∃ definition ∈ statement.field? "definition", definition.kind = kind := by
  constructor
  · rintro ⟨definition, plain | ⟨wrapper, field, same⟩⟩
    · exact Or.inl plain
    · exact Or.inr ⟨wrapper, definition, field, same⟩
  · rintro (plain | ⟨wrapper, definition, field, same⟩)
    · exact ⟨statement, .plain plain⟩
    · exact ⟨definition, .decorated wrapper field same⟩

instance (kind : String) : DecidablePred (Defines kind) := fun _ =>
  decidable_of_iff _ defines_iff.symm

instance : DecidablePred IsImport := fun statement =>
  inferInstanceAs (Decidable (statement.kind ∈ _))

/-- The element that a statement of a module yields in a category. -/
inductive Yields (statement : SyntaxTree) : Category → Element → Prop
  /-- A definition of a function yields that function. -/
  | function {definition : SyntaxTree} : Holds "function_definition" statement definition →
    Yields statement .function (function definition statement)
  /-- A definition of a class yields that class. -/
  | classDef {definition : SyntaxTree} : Holds "class_definition" statement definition →
    Yields statement .classDef (classOf definition statement)
  /-- An import yields its statement with collapsed white space. -/
  | importDecl : IsImport statement →
    Yields statement .importDecl (.ofImport (Text.collapse statement.text) statement.line)

/-- A definition is found by looking behind the decorators. -/
theorem holds_iff (other : kind ≠ "decorated_definition") :
    Holds kind statement definition ↔ definition? statement = some definition ∧
      definition.kind = kind := by
  unfold definition?
  constructor
  · rintro (plain | ⟨wrapper, field, same⟩)
    · exact ⟨if_neg fun wrapper => other (plain.symm.trans wrapper), plain⟩
    · exact ⟨by rw [if_pos wrapper, field], same⟩
  · rintro ⟨found, same⟩
    split_ifs at found with wrapper
    · exact .decorated wrapper found same
    · obtain rfl := Option.some.inj found
      exact .plain same

/-- What a statement holds is the statement or a part of it. -/
theorem Holds.eq_or_mem_children (h : Holds kind statement definition) :
    definition = statement ∨ definition ∈ statement.children := by
  rcases h with - | ⟨-, field, -⟩
  · exact Or.inl rfl
  · exact Or.inr (List.mem_of_find?_eq_some field)

/-- The test for imports finds them. -/
theorem isImport_iff : isImport statement = true ↔ IsImport statement := by
  simp [isImport, IsImport, or_assoc]

/-- An import is no definition. -/
theorem not_isImport_of_holds (other : ¬kind ∈ ["import_statement", "import_from_statement",
    "future_import_statement"]) (h : Holds kind statement definition) : ¬IsImport statement := by
  unfold IsImport
  rcases h with plain | ⟨wrapper, -, -⟩
  · rwa [plain]
  · rw [wrapper]
    decide

/-- A statement yields what it should and nothing else. -/
theorem element?_eq_some_iff :
    element? statement = some (category, element) ↔ Yields statement category element := by
  constructor
  · intro h
    unfold element? at h
    split_ifs at h with import_
    · obtain ⟨rfl, rfl⟩ := Prod.mk.inj (Option.some.inj h)
      exact .importDecl (isImport_iff.1 import_)
    · split at h
      · next definition found =>
        split_ifs at h with isFunction isClass
        · obtain ⟨rfl, rfl⟩ := Prod.mk.inj (Option.some.inj h)
          exact .function ((holds_iff (by decide)).2 ⟨found, isFunction⟩)
        · obtain ⟨rfl, rfl⟩ := Prod.mk.inj (Option.some.inj h)
          exact .classDef ((holds_iff (by decide)).2 ⟨found, isClass⟩)
      · exact absurd h (Option.some_ne_none _).symm
  · rintro (holds | holds | import_)
    · have other := not_isImport_of_holds (by decide) holds
      obtain ⟨found, same⟩ := (holds_iff (by decide)).1 holds
      unfold element?
      rw [if_neg (mt isImport_iff.1 other), found]
      exact if_pos same
    · have other := not_isImport_of_holds (by decide) holds
      obtain ⟨found, same⟩ := (holds_iff (by decide)).1 holds
      unfold element?
      rw [if_neg (mt isImport_iff.1 other), found]
      dsimp only
      rw [if_neg (by rw [same]; decide), if_pos same]
    · exact if_pos (isImport_iff.2 import_)

/-- Only definitions of functions and classes and imports yield anything. -/
theorem isSome_element?_iff : (element? statement).isSome = true ↔
    Defines "function_definition" statement ∨ Defines "class_definition" statement ∨
      IsImport statement := by
  rw [Option.isSome_iff_exists]
  constructor
  · rintro ⟨⟨category, element⟩, found⟩
    rcases element?_eq_some_iff.1 found with holds | holds | import_
    · exact Or.inl ⟨_, holds⟩
    · exact Or.inr (Or.inl ⟨_, holds⟩)
    · exact Or.inr (Or.inr import_)
  · rintro (⟨definition, holds⟩ | ⟨definition, holds⟩ | import_)
    · exact ⟨_, element?_eq_some_iff.2 (.function holds)⟩
    · exact ⟨_, element?_eq_some_iff.2 (.classDef holds)⟩
    · exact ⟨_, element?_eq_some_iff.2 (.importDecl import_)⟩

/-- A statement yields the function that it holds the definition of. -/
theorem yields_function_iff : Yields statement .function element ↔
    ∃ definition, Holds "function_definition" statement definition ∧
      function definition statement = element :=
  ⟨fun (.function holds) => ⟨_, holds, rfl⟩, fun ⟨_, holds, same⟩ => same ▸ .function holds⟩

/-- A statement yields the class that it holds the definition of. -/
theorem yields_classDef_iff : Yields statement .classDef element ↔
    ∃ definition, Holds "class_definition" statement definition ∧
      classOf definition statement = element :=
  ⟨fun (.classDef holds) => ⟨_, holds, rfl⟩, fun ⟨_, holds, same⟩ => same ▸ .classDef holds⟩

/-! ## The elements of a module -/

/-- The element that a statement yields in a category. -/
def elementIn? (category : Category) (statement : SyntaxTree) : Option Element :=
  (element? statement).bind fun (found, element) => if found = category then some element else none

/-- A statement yields that element. -/
theorem elementIn?_eq_some_iff :
    elementIn? category statement = some element ↔ Yields statement category element := by
  unfold elementIn?
  rw [← element?_eq_some_iff, Option.bind_eq_some_iff]
  constructor
  · rintro ⟨⟨found, other⟩, yields, same⟩
    dsimp only at same
    split_ifs at same with here
    obtain rfl := Option.some.inj same
    rwa [← here]
  · exact fun yields => ⟨_, yields, if_pos rfl⟩

/-- The elements of a category are those that the statements yield there. -/
theorem elements_eq_filterMap (category : Category) (module_ : SyntaxTree) :
    elements category module_ = module_.children.filterMap (elementIn? category) :=
  List.filterMap_filterMap

/-- An element of a category is one that a statement yields there. -/
theorem mem_elements_iff :
    element ∈ elements category module_ ↔
      ∃ statement ∈ module_.children, Yields statement category element := by
  rw [elements_eq_filterMap, List.mem_filterMap]
  simp only [elementIn?_eq_some_iff]

/-- Every element that is found belongs to one category. -/
theorem length_filterMap_category (found : List (Category × Element)) :
    ((Category.all.map fun category => found.filterMap fun (other, element) =>
      if other = category then some element else none).map List.length).sum = found.length := by
  induction found with
  | nil => rfl
  | cons first rest ih =>
    obtain ⟨category, element⟩ := first
    rw [List.length_cons, ← ih]
    cases category <;> simp [Category.all, List.filterMap_cons] <;> omega

/-- The number of elements is that of the statements that yield one. -/
theorem elementCount_ofModule (path : String) (module_ : SyntaxTree) :
    (ofModule path module_).elementCount = module_.children.countP fun statement =>
      Defines "function_definition" statement ∨ Defines "class_definition" statement ∨
        IsImport statement := by
  have count : (ofModule path module_).elementCount =
      (module_.children.filterMap element?).length := by
    rw [← length_filterMap_category]
    simp only [Structure.elementCount, ofModule, elements, Category.all, List.map_cons,
      List.map_nil, List.sum_cons, List.sum_nil]
    omega
  rw [count, List.length_filterMap_eq_countP]
  exact List.countP_congr fun statement _ => by rw [isSome_element?_iff, decide_eq_true_iff]

/-! ## The methods of a class -/

/-- A statement of a body makes a method when it holds the definition of a function. -/
theorem method?_eq_some_iff : method? statement = some element ↔
    ∃ definition, Holds "function_definition" statement definition ∧
      function definition statement = element := by
  unfold method?
  constructor
  · intro h
    split at h
    · next definition found =>
      split_ifs at h with isFunction
      exact ⟨definition, (holds_iff (by decide)).2 ⟨found, isFunction⟩, Option.some.inj h⟩
    · exact absurd h (Option.some_ne_none _).symm
  · rintro ⟨definition, holds, rfl⟩
    obtain ⟨found, isFunction⟩ := (holds_iff (by decide)).1 holds
    rw [found]
    exact if_pos isFunction

/-- The statements of a definition's body. -/
def bodyOf (definition : SyntaxTree) : List SyntaxTree :=
  ((definition.field? "body").map SyntaxTree.children).getD []

/-- They are the children of what fills the field for it. -/
theorem mem_bodyOf_iff {part : SyntaxTree} :
    part ∈ bodyOf definition ↔ ∃ body, definition.field? "body" = some body ∧
      part ∈ body.children := by
  unfold bodyOf
  cases definition.field? "body" <;> simp

/-- The methods of a class are those that its body makes. -/
theorem methods_classOf (definition whole : SyntaxTree) :
    (classOf definition whole).methods = (bodyOf definition).filterMap method? := by
  unfold classOf bodyOf
  cases definition.field? "body" <;> rfl

end CodeDelta.Outline.Python
