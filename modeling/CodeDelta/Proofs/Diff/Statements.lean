import CodeDelta.Proofs.Diff.Alike
import CodeDelta.Proofs.Text.Words

/-!
# Imports are compared by their words

An import is identified by its statement, whose white space is collapsed, and nothing else of it is
compared. Since collapsed texts are equal exactly when their words are, nothing is reported between
statements that differ only in white space, and conversely every statement has one of the same words
on the other side when nothing is reported (`imports_importing_eq_nil_iff`).
-/

namespace CodeDelta

/-- An import statement of a source. -/
structure Statement where
  /-- The statement as it is written. -/
  text : String
  /-- The line it starts at. -/
  line : Nat
  /-- The file it stands in, when that is known. -/
  file : Option String

/-- The words of a statement. -/
def Statement.words (statement : Statement) : List (List Char) := Text.wordsOf statement.text

/-- The element of an import statement. -/
def Statement.element (statement : Statement) : Element :=
  { Element.ofImport (Text.collapse statement.text) statement.line with file := statement.file }

/-- A structure with the imports of some statements in place of its own. -/
def Structure.importing (structure_ : Structure) (statements : List Statement) : Structure :=
  { structure_ with imports := statements.map Statement.element }

/-- Lists that match have the same keys. -/
theorem Matches.exists_key_iff {key : Element → Key} {category : Category} {as bs : List Element}
    (h : Matches key category as bs) (k : Key) :
    (∃ a ∈ as, key a = k) ↔ ∃ b ∈ bs, key b = k := by
  constructor
  · rintro ⟨a, ha, rfl⟩
    obtain ⟨b, hb, same, -⟩ := h.kept a ha
    exact ⟨b, hb, same.symm⟩
  · rintro ⟨b, hb, rfl⟩
    obtain ⟨a, ha, same, -⟩ := h.known b hb
    exact ⟨a, ha, same⟩

/-- The keys of imports that can be matched are their identities, without files. -/
theorem exists_key_matchable_importDecl (left right : Structure) (imports : List Element)
    (k : Key) :
    (∃ element ∈ matchable .importDecl imports, keyBetween left right .importDecl element = k) ↔
      k.file = none ∧ k.identity ≠ "" ∧
        ∃ element ∈ imports, element.identity .importDecl = k.identity := by
  have keyed : ∀ element : Element, keyBetween left right .importDecl element =
      ⟨none, element.identity .importDecl⟩ := by
    simp [keyBetween, Element.identity]
  simp only [mem_matchable, keyed]
  constructor
  · rintro ⟨element, ⟨inside, some⟩, rfl⟩
    exact ⟨rfl, some, element, inside, rfl⟩
  · rintro ⟨file, some, element, inside, same⟩
    obtain ⟨_, _⟩ := k
    subst file same
    exact ⟨element, ⟨inside, some⟩, rfl⟩

/-- No import is reported exactly when every import that can be matched has one of its identity on
the other side. -/
theorem imports_diff_eq_nil_iff (left right : Structure) :
    (left.diff right).detail.imports = [] ↔
      (∀ old ∈ left.imports, old.identity .importDecl ≠ "" →
        ∃ new ∈ right.imports, new.identity .importDecl = old.identity .importDecl) ∧
      ∀ new ∈ right.imports, new.identity .importDecl ≠ "" →
        ∃ old ∈ left.imports, old.identity .importDecl = new.identity .importDecl := by
  show (left.diff right).detail.get .importDecl = [] ↔ _
  rw [get_detail_diff_eq, recordsBy_eq_nil_iff (nodup_keys_lastBy _ _)]
  constructor
  · intro matched
    have same := fun identity => matched.exists_key_iff ⟨none, identity⟩
    simp only [exists_mem_lastBy, exists_key_matchable_importDecl, true_and] at same
    refine ⟨fun old inside some => ?_, fun new inside some => ?_⟩
    · exact ((same _).1 ⟨some, old, inside, rfl⟩).2
    · exact ((same _).2 ⟨some, new, inside, rfl⟩).2
  · rintro ⟨kept, known⟩
    refine Matches.importDecl fun k => ?_
    rw [exists_key_matchable_importDecl, exists_key_matchable_importDecl]
    refine and_congr_right fun _ => and_congr_right fun some => ⟨?_, ?_⟩
    · rintro ⟨old, inside, same⟩
      obtain ⟨new, other, identity⟩ := kept old inside (same ▸ some)
      exact ⟨new, other, identity.trans same⟩
    · rintro ⟨new, inside, same⟩
      obtain ⟨old, other, identity⟩ := known new inside (same ▸ some)
      exact ⟨old, other, identity.trans same⟩

/-! ## Statements -/

/-- No import is reported between statements exactly when every statement with a word has one of the
same words on the other side. -/
theorem imports_importing_eq_nil_iff (left right : Structure) (olds news : List Statement) :
    ((left.importing olds).diff (right.importing news)).detail.imports = [] ↔
      (∀ old ∈ olds, old.words ≠ [] → ∃ new ∈ news, new.words = old.words) ∧
      ∀ new ∈ news, new.words ≠ [] → ∃ old ∈ olds, old.words = new.words := by
  have identity : ∀ statement : Statement,
      statement.element.identity .importDecl = Text.collapse statement.text := fun _ => rfl
  rw [imports_diff_eq_nil_iff]
  simp only [Structure.importing, List.mem_map, exists_exists_and_eq_and, forall_exists_index,
    and_imp, forall_apply_eq_imp_iff₂, identity, ne_eq, Text.collapse_eq_empty_iff,
    Text.collapse_eq_iff, Statement.words]

/-- Collapsing white space is a canonical form: two texts collapse to one exactly when they have the
same words, what it makes is collapsed, and a collapsed text stays as it is. So imports are compared
by their words: when statements differ only in their white space, none is reported and none is
counted, and none is reported only when both sides have statements of the same words. -/
theorem collapse_canonical :
    (∀ left right : String,
      Text.collapse left = Text.collapse right ↔ Text.wordsOf left = Text.wordsOf right) ∧
    (∀ text : String, Text.IsCollapsed (Text.collapse text).toList ∧
      Text.collapse (Text.collapse text) = Text.collapse text) ∧
    ∀ (left right : Structure) (olds news : List Statement),
      (olds.map Statement.words = news.map Statement.words →
        ((left.importing olds).diff (right.importing news)).detail.imports = [] ∧
        ((left.importing olds).diff (right.importing news)).summary.imports = .zero) ∧
      (((left.importing olds).diff (right.importing news)).detail.imports = [] ↔
        (∀ old ∈ olds, old.words ≠ [] → ∃ new ∈ news, new.words = old.words) ∧
        ∀ new ∈ news, new.words ≠ [] → ∃ old ∈ olds, old.words = new.words) := by
  refine ⟨fun _ _ => Text.collapse_eq_iff, fun text => ?_, fun left right olds news =>
    ⟨fun same => ?_, imports_importing_eq_nil_iff left right olds news⟩⟩
  · have collapsed := Text.isCollapsed_collapse text
    exact ⟨collapsed, Text.collapse_eq_self_iff.2 collapsed⟩
  · have none_reported :
        ((left.importing olds).diff (right.importing news)).detail.imports = [] := by
      refine (imports_importing_eq_nil_iff left right olds news).2
        ⟨fun old inside _ => ?_, fun new inside _ => ?_⟩
      · have listed : old.words ∈ news.map Statement.words := same ▸ List.mem_map_of_mem inside
        exact List.mem_map.1 listed
      · have listed : new.words ∈ olds.map Statement.words := same ▸ List.mem_map_of_mem inside
        exact List.mem_map.1 listed
    refine ⟨none_reported, ?_⟩
    calc ((left.importing olds).diff (right.importing news)).summary.imports
        = .ofRecords ((left.importing olds).diff (right.importing news)).detail.imports := rfl
      _ = .zero := by rw [none_reported]; rfl

/-- A statement over several lines, and the same one on a line further down. -/
theorem collapse_canonical_reflowed :
    let old : Statement := ⟨"from typing import (\n    List,\n)", 1, none⟩
    let new : Statement := ⟨"from typing import\t( List, )", 3, some "a.py"⟩
    [old].map Statement.words = [new].map Statement.words ∧
      ((Structure.blank.importing [old]).diff (Structure.blank.importing [new])).detail.imports =
        [] := by
  obtain ⟨-, -, compared⟩ := collapse_canonical
  have same : [(⟨"from typing import (\n    List,\n)", 1, none⟩ : Statement)].map Statement.words =
      [(⟨"from typing import\t( List, )", 3, some "a.py"⟩ : Statement)].map Statement.words := by
    decide
  exact ⟨same, ((compared .blank .blank _ _).1 same).1⟩

end CodeDelta
