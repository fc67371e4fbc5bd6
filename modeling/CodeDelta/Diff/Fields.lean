import CodeDelta.Diff.Change

/-!
# Comparing the fields of two elements

Functions and classes are compared by signature, complexity, number of lines and first line;
classes also by bases, in order, and by the set of their methods' names. Imports have nothing to
compare beyond the statement they are matched by.
-/

namespace CodeDelta

namespace FieldChanges

/-- Records a change of `name` when the two values differ. -/
def note [DecidableEq α] (changes : FieldChanges) (name : String) (describe : α → α → FieldChange)
    (old new : α) : FieldChanges :=
  if old = new then changes else changes.insert name (describe old new)

end FieldChanges

namespace Element

/-- The names that do not stand among `others`, each once, in order of first appearance; `seen`
holds the names already given. -/
def namesBeyond (others : List String) (seen : List String) : List String → List String
  | [] => []
  | name :: rest =>
    if name ∈ others ∨ name ∈ seen then namesBeyond others seen rest
    else name :: namesBeyond others (name :: seen) rest

/-- Whether two lists hold the same names. -/
def sameNames (a b : List String) : Bool :=
  a.all (fun name => b.contains name) && b.all (fun name => a.contains name)

/-- The change of the methods: their numbers, and the names that only one side has. The numbers are
those of the lists; counters of 32 bits hold the same ones of elements with fewer than `2 ^ 32`
methods. -/
def methodsChange (old new : Element) : FieldChange :=
  { FieldChange.ofNumbers (some old.methods.length) (some new.methods.length) with
    added := namesBeyond old.methodNames [] new.methodNames
    removed := namesBeyond new.methodNames [] old.methodNames }

/-- The change of a list of texts. -/
def listChange (old new : List String) : FieldChange :=
  .ofValues (.ofStrings old) (.ofStrings new)

/-- The change of a text. -/
def textChange (old new : Option String) : FieldChange :=
  .ofValues (FieldChange.textValue old) (FieldChange.textValue new)

/-- The fields of functions and classes that differ. -/
def commonChanges (old new : Element) : FieldChanges :=
  ((((FieldChanges.empty.note "signature" textChange old.signature new.signature).note
    "complexity" FieldChange.ofNumbers old.complexity new.complexity).note
    "line_count" FieldChange.ofNumbers old.lineCount new.lineCount).note
    "line" FieldChange.ofNumbers old.line new.line)

/-- The fields of classes that differ. -/
def classChanges (old new : Element) : FieldChanges :=
  let changes := (commonChanges old new).note "bases" listChange old.bases new.bases
  if sameNames old.methodNames new.methodNames then changes
  else changes.insert "methods" (methodsChange old new)

/-- The fields that differ between two matched elements. -/
def compare (category : Category) (old new : Element) : FieldChanges :=
  match category with
  | .function => commonChanges old new
  | .classDef => classChanges old new
  | .importDecl => .empty

end Element

end CodeDelta
