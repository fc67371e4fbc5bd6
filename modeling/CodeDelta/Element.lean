/-!
# Elements of source code

An element is one named unit of a program's structure: a function, a class with its methods, or an
import. Elements of one category are matched by their identity: an import's is its statement, every
other element's its name.
-/

namespace CodeDelta

/-- The kinds of elements that every structure lists. -/
inductive Category where
  | function
  | classDef
  | importDecl
deriving DecidableEq, Repr, Inhabited

namespace Category

/-- All categories in the order in which they are shown. -/
def all : List Category := [.function, .classDef, .importDecl]

/-- The word for one element. -/
def word : Category → String
  | .function => "function"
  | .classDef => "class"
  | .importDecl => "import"

/-- The word for several elements, which also names the category in documents. -/
def plural : Category → String
  | .function => "functions"
  | .classDef => "classes"
  | .importDecl => "imports"

/-- The category that a word names. -/
def ofWord? (text : String) : Option Category := all.find? fun category => category.word == text

end Category

/-- One unit of a program's structure. -/
structure Element where
  /-- The name; empty when there is none. -/
  name : String
  /-- The line the element starts at, counted from one. -/
  line : Option Nat
  /-- The number of lines it spans. -/
  lineCount : Option Nat
  /-- Name, parameters and result as the source writes them. -/
  signature : Option String
  /-- The cyclomatic complexity, at least one. -/
  complexity : Option Nat
  /-- The names of a class's bases, in order. -/
  bases : List String
  /-- A class's methods, in order. -/
  methods : List Element
  /-- The file the element came from, below the directory that was read. -/
  file : Option String
  /-- The statement of an import. -/
  content : Option String
deriving Repr, Inhabited

namespace Element

/-- An element of which nothing is known. -/
def blank : Element := ⟨"", none, none, none, none, [], [], none, none⟩

/-- An element of which only the name is known. -/
def named (name : String) : Element := { blank with name := name }

/-- The element of an import statement. -/
def ofImport (statement : String) (line : Nat) : Element :=
  { blank with name := statement, line := some line, content := some statement }

/-- What an element is matched by; elements with an empty identity are never matched. -/
def identity (category : Category) (element : Element) : String :=
  match category with
  | .importDecl => element.content.getD element.name
  | _ => element.name

/-- The names of the methods, in order. -/
def methodNames (element : Element) : List String := element.methods.map Element.name

/-- The first method of that name. -/
def findMethod? (element : Element) (name : String) : Option Element :=
  element.methods.find? fun method => method.name == name

/-- The element, said to come from that file. -/
def inFile (path : String) (element : Element) : Element := { element with file := some path }

mutual

/-- Decides equality of elements. -/
def decEq : (a b : Element) → Decidable (a = b)
  | ⟨n, l, c, s, x, b, m, f, t⟩, ⟨n', l', c', s', x', b', m', f', t'⟩ =>
    match decEqMethods m m' with
    | isTrue hm =>
      if h : n = n' ∧ l = l' ∧ c = c' ∧ s = s' ∧ x = x' ∧ b = b' ∧ f = f' ∧ t = t' then
        isTrue (by simp [h, hm])
      else isFalse (by simp [hm]; simpa using h)
    | isFalse hm => isFalse (by simp [hm])

/-- Decides equality of lists of elements. -/
def decEqMethods : (a b : List Element) → Decidable (a = b)
  | [], [] => isTrue rfl
  | [], _ :: _ => isFalse (by simp)
  | _ :: _, [] => isFalse (by simp)
  | x :: xs, y :: ys =>
    match decEq x y, decEqMethods xs ys with
    | isTrue h, isTrue hs => isTrue (by rw [h, hs])
    | isFalse h, _ => isFalse (by simp [h])
    | _, isFalse hs => isFalse (by simp [hs])

end

instance : DecidableEq Element := decEq

end Element

end CodeDelta
