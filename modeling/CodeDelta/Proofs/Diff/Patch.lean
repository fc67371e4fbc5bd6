import CodeDelta.Proofs.Diff.Fields
import CodeDelta.Proofs.Json.Members
import CodeDelta.Proofs.Text.FirstAppearance
import Mathlib.Data.Finset.Dedup
import Mathlib.Data.Finset.SDiff
import Mathlib.Data.Finset.Union

/-!
# Change maps as patches

A change map tells of every compared field that differs, and of no other, its old and its new value
(`get?_compare`). It is enough to make the new element's fields out of the old one's: a field that
the map does not name is kept, and one that it names gets its new value, where the methods count by
their names, of which some go and some come (`FieldChanges.patch_compare`).

Comparing is one step repeated over the fields of the category (`compare_eq_foldl`), so what is
said of a map is proved once, for any field and any list of fields.
-/

namespace CodeDelta

open Text

/-! ## Fields and their values -/

/-- The fields by which elements are compared. -/
inductive Element.Field where
  | signature
  | complexity
  | lineCount
  | line
  | bases
  | methods
deriving DecidableEq, Repr

namespace Element.Field

/-- What a field is called in a change map. -/
def label : Field → String
  | signature => "signature"
  | complexity => "complexity"
  | lineCount => "line_count"
  | line => "line"
  | bases => "bases"
  | methods => "methods"

/-- The values of a field. Of the methods only the names count, each once and in no order. -/
abbrev Value : Field → Type
  | signature => Option String
  | complexity | lineCount | line => Option ℕ
  | bases => List String
  | methods => Finset String

/-- The value that an element has in a field. -/
def value : (field : Field) → Element → field.Value
  | signature, element => element.signature
  | complexity, element => element.complexity
  | lineCount, element => element.lineCount
  | line, element => element.line
  | bases, element => element.bases
  | methods, element => element.methodNames.toFinset

instance : (field : Field) → DecidableEq field.Value
  | signature => inferInstanceAs (DecidableEq (Option String))
  | complexity | lineCount | line => inferInstanceAs (DecidableEq (Option ℕ))
  | bases => inferInstanceAs (DecidableEq (List String))
  | methods => inferInstanceAs (DecidableEq (Finset String))

/-- A text as it stands in a change, `null` when there is none. -/
def ofText : Option String → Json
  | none => .null
  | some text => .string text

/-- A number as it stands in a change, `null` when there is none. -/
def ofNumber : Option ℕ → Json
  | none => .null
  | some n => .number (.integer n)

/-- The change of a number, with the difference when both sides have one. -/
def numberChange (old new : Option ℕ) : FieldChange where
  old := ofNumber old
  new := ofNumber new
  delta := do
    let m ← old
    let n ← new
    return (n : ℤ) - m
  added := []
  removed := []

/-- The names of one list that another one lacks, each once, in the order in which they first
appear. -/
def namesOnlyIn (names others : List String) : List String :=
  (names.filter fun name => name ∉ others).eraseDups

/-- What is told of a field that differs. -/
def change (old new : Element) : Field → FieldChange
  | signature => ⟨ofText old.signature, ofText new.signature, none, [], []⟩
  | complexity => numberChange old.complexity new.complexity
  | lineCount => numberChange old.lineCount new.lineCount
  | line => numberChange old.line new.line
  | bases =>
    ⟨.array (old.bases.map .string), .array (new.bases.map .string), none, [], []⟩
  | methods =>
    { numberChange (some old.methods.length) (some new.methods.length) with
      added := namesOnlyIn new.methodNames old.methodNames
      removed := namesOnlyIn old.methodNames new.methodNames }

/-- Fields have different names. -/
theorem eq_of_label {field other : Field} (h : field.label = other.label) : field = other := by
  cases field <;> cases other <;> revert h <;> decide

end Element.Field

/-- The fields that a category compares; imports have none. -/
def Category.fields : Category → List Element.Field
  | .function => [.signature, .complexity, .lineCount, .line]
  | .classDef => [.signature, .complexity, .lineCount, .line, .bases, .methods]
  | .importDecl => []

/-! ## What a change map tells -/

/-- A change that was set is found under its field's name, and every other one as before. -/
theorem FieldChanges.get?_insert (changes : FieldChanges) (name label : String)
    (change : FieldChange) :
    (changes.insert name change).get? label =
      if label = name then some change else changes.get? label :=
  Json.lookup_insertMember name label change changes.entries

namespace Element

/-- The names that only one list has are found by going through it once. -/
theorem namesBeyond_eq (others seen names : List String) :
    namesBeyond others seen names =
      (names.filter fun name => name ∉ seen ++ others).eraseDups := by
  induction names generalizing seen with
  | nil => rfl
  | cons name rest ih =>
    rw [namesBeyond]
    by_cases known : name ∈ seen ++ others
    · have passed : ¬decide (name ∉ seen ++ others) = true := fun h => of_decide_eq_true h known
      rw [if_pos (List.mem_append.1 known).symm, ih, List.filter_cons, if_neg passed]
    · -- The name is told now and counts as seen, so that it is not told again.
      have new : ¬(name ∈ others ∨ name ∈ seen) := fun h => known (List.mem_append.2 h.symm)
      rw [if_neg new, ih, eraseDups_filter_cons known]
      rfl

/-- A number is described by its values and their difference. -/
theorem ofNumbers_eq (old new : Option ℕ) :
    FieldChange.ofNumbers old new = Field.numberChange old new := by
  cases old <;> cases new <;> rfl

/-- A text is described by its values. -/
theorem textChange_eq (old new : Option String) :
    textChange old new = ⟨Field.ofText old, Field.ofText new, none, [], []⟩ := by
  cases old <;> cases new <;> rfl

/-- The methods are described by their numbers and by the names that come and go. -/
theorem methodsChange_eq (old new : Element) :
    methodsChange old new = Field.methods.change old new := by
  unfold methodsChange
  rw [namesBeyond_eq, namesBeyond_eq, ofNumbers_eq]
  rfl

/-- The change map with one more field compared. -/
def noteField (old new : Element) (changes : FieldChanges) (field : Field) : FieldChanges :=
  if field.value old = field.value new then changes
  else changes.insert field.label (field.change old new)

/-- Comparing two elements is comparing the fields of their category one after another. -/
theorem compare_eq_foldl (category : Category) (old new : Element) :
    old.compare category new = category.fields.foldl (noteField old new) .empty := by
  have common : commonChanges old new =
      Category.function.fields.foldl (noteField old new) .empty := by
    unfold commonChanges FieldChanges.note
    simp only [ofNumbers_eq, textChange_eq]
    rfl
  cases category with
  | function => exact common
  | importDecl => rfl
  | classDef =>
    -- Two more fields; the methods are compared by a search both ways, which is as sets.
    have names : sameNames old.methodNames new.methodNames = true ↔
        Field.methods.value old = Field.methods.value new :=
      (sameNames_iff _ _).trans List.toFinset.ext_iff.symm
    simp only [compare, classChanges]
    rw [common, methodsChange_eq]
    simp only [names]
    rfl

/-- One more field is told when it differs, and all others as before. -/
theorem get?_noteField (old new : Element) (changes : FieldChanges) (field other : Field) :
    (noteField old new changes field).get? other.label =
      if other = field ∧ other.value old ≠ other.value new then some (other.change old new)
      else changes.get? other.label := by
  unfold noteField
  by_cases same : other = field
  · subst same
    by_cases equal : other.value old = other.value new
    · rw [if_pos equal, if_neg fun h => h.2 equal]
    · rw [if_neg equal, if_pos ⟨rfl, equal⟩, FieldChanges.get?_insert, if_pos rfl]
  · -- Another field's change stands under another name.
    rw [if_neg fun h : _ ∧ _ => same h.1]
    split_ifs
    · rfl
    · rw [FieldChanges.get?_insert, if_neg fun h => same (Field.eq_of_label h)]

/-- Of several fields those that differ are told, and all others as before. -/
theorem get?_foldl_noteField (old new : Element) (fields : List Field) (changes : FieldChanges)
    (field : Field) :
    (fields.foldl (noteField old new) changes).get? field.label =
      if field ∈ fields ∧ field.value old ≠ field.value new then some (field.change old new)
      else changes.get? field.label := by
  induction fields generalizing changes with
  | nil => rfl
  | cons first rest ih =>
    rw [List.foldl_cons, ih, get?_noteField]
    by_cases equal : field.value old = field.value new
    · simp only [equal, ne_eq, not_true_eq_false, and_false, if_false]
    · -- A field that comes again is told again, with the same change.
      simp only [equal, ne_eq, not_false_eq_true, and_true, List.mem_cons]
      by_cases later : field ∈ rest
      · rw [if_pos later, if_pos (Or.inr later)]
      · simp only [later, if_false, or_false]

/-- Nothing but fields is told. -/
theorem exists_label_of_get?_foldl_noteField {old new : Element} {fields : List Field}
    {changes : FieldChanges} {label : String} {change : FieldChange}
    (h : (fields.foldl (noteField old new) changes).get? label = some change) :
    (∃ field ∈ fields, field.label = label) ∨ changes.get? label = some change := by
  induction fields generalizing changes with
  | nil => exact Or.inr h
  | cons first rest ih =>
    rcases ih h with ⟨field, later, named⟩ | told
    · exact Or.inl ⟨field, List.mem_cons_of_mem first later, named⟩
    · -- No later field has the name, so it is the first one's or was there before.
      unfold noteField at told
      split_ifs at told
      · exact Or.inr told
      · rw [FieldChanges.get?_insert] at told
        split_ifs at told with here
        · exact Or.inl ⟨first, List.mem_cons_self, here.symm⟩
        · exact Or.inr told

/-- A change map tells of a compared field whether it differs, and how. -/
theorem get?_compare_label (category : Category) (old new : Element) (field : Field) :
    (old.compare category new).get? field.label =
      if field ∈ category.fields ∧ field.value old ≠ field.value new then
        some (field.change old new)
      else none := by
  rw [compare_eq_foldl, get?_foldl_noteField]
  rfl

/-- A change map tells the compared fields that differ, with what is told of each, and nothing
else. -/
theorem get?_compare (category : Category) (old new : Element) (label : String)
    (change : FieldChange) :
    (old.compare category new).get? label = some change ↔
      ∃ field ∈ category.fields, field.label = label ∧ field.value old ≠ field.value new ∧
        change = field.change old new := by
  constructor
  · intro told
    have fold := told
    rw [compare_eq_foldl] at fold
    rcases exists_label_of_get?_foldl_noteField fold with ⟨field, compared, rfl⟩ | absent
    · rw [get?_compare_label] at told
      split_ifs at told with differs
      exact ⟨field, compared, rfl, differs.2, (Option.some_inj.1 told).symm⟩
    · exact absurd absent.symm (Option.some_ne_none change)
  · rintro ⟨field, compared, rfl, differs, rfl⟩
    rw [get?_compare_label, if_pos ⟨compared, differs⟩]

/-- Elements agree when they have the same values in all fields that are compared. -/
theorem agree_iff_fields (category : Category) (a b : Element) :
    Agree category a b ↔ ∀ field ∈ category.fields, field.value a = field.value b := by
  cases category <;>
    simp [Agree, Category.fields, Field.value, List.toFinset.ext_iff, and_assoc]

end Element

/-! ## The new fields from the old ones -/

namespace Element.Field

/-- The text that stands in a change. -/
def toText : Json → Option String
  | .string text => some text
  | _ => none

/-- The number that stands in a change. -/
def toNumber : Json → Option ℕ
  | .number (.integer n) => some n.toNat
  | _ => none

/-- The list of texts that stands in a change. -/
def toTexts : Json → List String
  | .array items => items.filterMap toText
  | _ => []

/-- What a change makes of the old value of a field: the new value that it tells, and of the names
of methods those that are not removed, with those that are added. -/
def patched (change : FieldChange) : (field : Field) → field.Value → field.Value
  | signature, _ => toText change.new
  | complexity, _ | lineCount, _ | line, _ => toNumber change.new
  | bases, _ => toTexts change.new
  | methods, names => (names \ change.removed.toFinset) ∪ change.added.toFinset

/-- A text is read as it was written. -/
theorem toText_ofText (text : Option String) : toText (ofText text) = text := by
  cases text <;> rfl

/-- A number is read as it was written. -/
theorem toNumber_ofNumber (n : Option ℕ) : toNumber (ofNumber n) = n := by
  cases n <;> rfl

/-- A list of texts is read as it was written. -/
theorem toTexts_array (texts : List String) : toTexts (.array (texts.map .string)) = texts := by
  unfold toTexts
  dsimp only
  rw [List.filterMap_map]
  exact List.filterMap_some

/-- Of two sets of names, taking away what only one has and adding what only the other has leads
from the one to the other. -/
theorem sdiff_union_namesOnlyIn (olds news : List String) :
    (olds.toFinset \ (namesOnlyIn olds news).toFinset) ∪ (namesOnlyIn news olds).toFinset =
      news.toFinset := by
  ext name
  unfold namesOnlyIn
  simp only [Finset.mem_union, Finset.mem_sdiff, List.mem_toFinset, List.mem_eraseDups,
    List.mem_filter, decide_eq_true_eq]
  tauto

/-- What is told of a field makes its new value out of the old one. -/
theorem patched_change (old new : Element) (field : Field) :
    field.patched (field.change old new) (field.value old) = field.value new := by
  cases field with
  | signature => exact toText_ofText new.signature
  | complexity => exact toNumber_ofNumber new.complexity
  | lineCount => exact toNumber_ofNumber new.lineCount
  | line => exact toNumber_ofNumber new.line
  | bases => exact toTexts_array new.bases
  | methods => exact sdiff_union_namesOnlyIn old.methodNames new.methodNames

end Element.Field

/-- What a change map makes of the value of a field: a field that it does not tell keeps its
value. -/
def FieldChanges.patch (changes : FieldChanges) (field : Element.Field) (value : field.Value) :
    field.Value :=
  match changes.get? field.label with
  | none => value
  | some change => field.patched change value

/-- The change map of two elements makes the new one's compared fields out of the old one's. -/
theorem FieldChanges.patch_compare {category : Category} (old new : Element)
    {field : Element.Field} (compared : field ∈ category.fields) :
    (old.compare category new).patch field (field.value old) = field.value new := by
  unfold patch
  rw [Element.get?_compare_label]
  by_cases equal : field.value old = field.value new
  · rw [if_neg fun h => h.2 equal]
    exact equal
  · rw [if_pos ⟨compared, equal⟩]
    exact Element.Field.patched_change old new field

/-- A change map is a faithful patch. It tells the compared fields that differ, each with its old
and new value, and nothing else; it makes the new element's compared fields out of the old one's;
and it is empty exactly when no compared field differs. The numbers of methods are told as they are,
which is as counters of 32 bits hold them for elements with few methods
(`methodsChange_eq_counted`). -/
theorem Element.compare_faithful (category : Category) (old new : Element) :
    (∀ label change, (old.compare category new).get? label = some change ↔
      ∃ field ∈ category.fields, field.label = label ∧ field.value old ≠ field.value new ∧
        change = field.change old new) ∧
    (∀ field ∈ category.fields,
      (old.compare category new).patch field (field.value old) = field.value new) ∧
    ((old.compare category new).isEmpty = true ↔
      ∀ field ∈ category.fields, field.value old = field.value new) := by
  refine ⟨get?_compare category old new, fun field compared => ?_, ?_⟩
  · exact FieldChanges.patch_compare old new compared
  · rw [compare_isEmpty_iff, agree_iff_fields]

/-- The methods are counted in the lists and compared as sets: three stand on either side, and
still one name has gone and another one has come. -/
example :
    ({ Element.named "Store" with methods := [.named "load", .named "save", .named "load"] }.compare
      .classDef
      { Element.named "Store" with methods := [.named "save", .named "drop", .named "drop"] }).get?
        "methods" =
      some ⟨.ofNat 3, .ofNat 3, some 0, ["drop"], ["load"]⟩ := by
  decide

end CodeDelta
