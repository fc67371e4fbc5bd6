import CodeDelta.Diff.Fields

/-!
# Comparing two structures

Elements are matched by their keys within each category. When both structures say where their
elements come from, the file belongs to the key of functions and classes, so that elements of one
name in different files are never taken for each other. Of several elements with one key the last
is in force, and its place counts.
-/

namespace CodeDelta

/-- What elements are matched by: the file, where it matters, and the identity. -/
structure Key where
  /-- The file, when files tell elements apart. -/
  file : Option String
  /-- The identity in the category. -/
  identity : String
deriving DecidableEq, Repr, Inhabited

/-- The key of an element; files matter when `byFile` and never for imports. -/
def Element.key (byFile : Bool) (category : Category) (element : Element) : Key :=
  ⟨if byFile && category != .importDecl then element.file else none, element.identity category⟩

/-- The elements that can be matched, with their keys. -/
def keyed (byFile : Bool) (category : Category) (elements : List Element) :
    List (Key × Element) :=
  (elements.filter fun element => element.identity category != "").map fun element =>
    (element.key byFile category, element)

/-- The last entry of every key, in order. -/
def lastOccurrences : List (Key × Element) → List (Key × Element)
  | [] => []
  | entry :: rest =>
    if rest.any fun other => other.1 == entry.1 then lastOccurrences rest
    else entry :: lastOccurrences rest

/-- The entries of a category that are in force. -/
def index (byFile : Bool) (category : Category) (elements : List Element) :
    List (Key × Element) :=
  lastOccurrences (keyed byFile category elements)

/-- The entries whose keys the other side lacks. -/
def unmatched (entries others : List (Key × Element)) : List (Key × Element) :=
  entries.filter fun entry => !others.any fun other => other.1 == entry.1

/-- The record of an element that both sides have, when a field differs. -/
def modifiedRecord? (category : Category) (news : List (Key × Element))
    (entry : Key × Element) : Option Record :=
  (news.lookup entry.1).bind fun new =>
    let changes := entry.2.compare category new
    if changes.isEmpty then none else some (.modified new changes)

/-- The records of one category: what was added in the new order, what was removed in the old
order, and what was modified in the old order. -/
def diffCategory (byFile : Bool) (category : Category) (left right : List Element) :
    List Record :=
  let olds := index byFile category left
  let news := index byFile category right
  (unmatched news olds).map (fun entry => .added entry.2) ++
    (unmatched olds news).map (fun entry => .removed entry.2) ++
    olds.filterMap (modifiedRecord? category news)

namespace Counts

/-- The counts of a list of records. -/
def ofRecords (records : List Record) : Counts :=
  records.foldl (fun counts record => counts.count record.kind) .zero

end Counts

/-- Whether the file belongs to the keys: both structures tag some element. -/
def fileScoped (left right : Structure) : Bool := left.isFileTagged && right.isFileTagged

/-- The records of all categories. -/
def Structure.detailTo (left right : Structure) : Detail :=
  let records (category : Category) : List Record :=
    diffCategory (fileScoped left right) category (left.elements category)
      (right.elements category)
  ⟨records .function, records .classDef, records .importDecl⟩

/-- The comparison of two structures. -/
def Structure.diff (left right : Structure) : StructureDiff :=
  let detail := left.detailTo right
  ⟨⟨.ofRecords detail.functions, .ofRecords detail.classes, .ofRecords detail.imports⟩, detail⟩

end CodeDelta
