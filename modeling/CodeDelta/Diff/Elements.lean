import CodeDelta.Diff.Fields

/-!
# Comparing one element by name

A name is looked up on both sides, as a function, as a class and as a method. When either side
finds a class, the fields of classes are compared.
-/

namespace CodeDelta

/-- What became of one name. -/
inductive ElementDiff where
  /-- Neither side has the name. -/
  | notFound (name : String)
  /-- Only the new side has it. -/
  | added (name : String) (element : Element)
  /-- Only the old side has it. -/
  | removed (name : String) (element : Element)
  /-- Both sides have it, with equal fields; the new side's element. -/
  | unchanged (name : String) (element : Element)
  /-- Both sides have it, and fields differ. -/
  | modified (name : String) (old new : Element) (changes : FieldChanges)
deriving DecidableEq, Repr, Inhabited

namespace ElementDiff

/-- The name that was looked up. -/
def name : ElementDiff → String
  | notFound name | added name _ | removed name _ | unchanged name _ | modified name _ _ _ => name

/-- The word for the outcome. -/
def word : ElementDiff → String
  | notFound _ => "not_found"
  | added _ _ => "added"
  | removed _ _ => "removed"
  | unchanged _ _ => "unchanged"
  | modified _ _ _ _ => "modified"

end ElementDiff

/-- The category whose fields are compared when the two sides found these. -/
def Category.wider (a b : Category) : Category :=
  if a = .classDef ∨ b = .classDef then .classDef else .function

/-- The comparison of the elements that a name finds on both sides. -/
def Structure.diffElement (left right : Structure) (name : String) : ElementDiff :=
  match left.find? name, right.find? name with
  | none, none => .notFound name
  | none, some (_, new) => .added name new
  | some (_, old), none => .removed name old
  | some (leftCategory, old), some (rightCategory, new) =>
    let changes := old.compare (leftCategory.wider rightCategory) new
    if changes.isEmpty then .unchanged name new else .modified name old new changes

/-- The comparison of one element with the addresses of its two sides. -/
structure ElementReport where
  /-- The old side's address. -/
  left : String
  /-- The new side's address. -/
  right : String
  /-- What became of the name. -/
  diff : ElementDiff
deriving DecidableEq, Repr, Inhabited

end CodeDelta
