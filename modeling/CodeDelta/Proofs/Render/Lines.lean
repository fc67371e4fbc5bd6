import CodeDelta.Diff.Structures
import CodeDelta.Proofs.Diff.Lookup
import CodeDelta.Proofs.Text.Split
import CodeDelta.Render.Element
import CodeDelta.Render.Report
import Mathlib.Tactic.SplitIfs

/-!
# The category in the format of lines

A line tells the category of its element as its second word. The lines of a whole comparison tell
the category under which each record stands (`words_grepLines`). The line of one element tells what
its bases and methods suggest, which is the category that it was found under unless a class has
neither or a function has one of them (`ElementReport.words_grepLines_iff`).
-/

namespace CodeDelta

namespace Render

/-- The second word of a line, when two blanks set it off. -/
def secondWord? (line : String) : Option String := do
  let (_, rest) ← Text.splitFirst? ' ' line.toList
  let (word, _) ← Text.splitFirst? ' ' rest
  return String.ofList word

/-- The second of three words or more, when neither of the first two holds a blank. -/
theorem secondWord?_intercalate {first second : String} (third : String) (rest : List String)
    (hf : ' ' ∉ first.toList) (hs : ' ' ∉ second.toList) :
    secondWord? (" ".intercalate (first :: second :: third :: rest)) = some second := by
  have line : (" ".intercalate (first :: second :: third :: rest)).toList =
      first.toList ++ ' ' :: (second.toList ++ ' ' ::
        (" ".intercalate (third :: rest)).toList) := by
    simp [String.toList_intercalate]
  unfold secondWord?
  rw [line, Text.splitFirst?_append_cons hf]
  show (Text.splitFirst? ' ' _).bind _ = _
  rw [Text.splitFirst?_append_cons hs]
  show some (String.ofList second.toList) = _
  rw [String.ofList_toList]

/-- The line of a change tells the category as its second word. -/
theorem secondWord?_changeLine {sigil : Char} (h : sigil ≠ ' ') (category : Category)
    (element : Element) (fallback : Option String) :
    secondWord? (changeLine sigil category element fallback) = some category.word := by
  have mark : ' ' ∉ sigil.toString.toList := by simpa [Char.toString] using h.symm
  have word : ' ' ∉ category.word.toList := by cases category <;> decide
  unfold changeLine grepLine
  rw [List.cons_append, List.cons_append, List.cons_append]
  exact secondWord?_intercalate _ _ mark word

end Render

open Render

/-- The lines of a comparison tell the categories of its records, in order. -/
theorem Report.words_grepLines (report : Report) :
    report.grepLines.map secondWord? =
      report.detail.entries.map fun entry => some entry.1.word := by
  unfold Report.grepLines
  rw [List.map_map]
  refine List.map_congr_left fun entry _ => secondWord?_changeLine ?_ entry.1 entry.2.element _
  cases entry.2.kind <;> decide

/-- Two categories that are told by one word are one. -/
theorem Category.word_inj {a b : Category} : a.word = b.word ↔ a = b := by
  cases a <;> cases b <;> decide

namespace ElementReport

/-- An element with bases or methods is told as a class. -/
theorem categoryOf_eq_classDef {element : Element} :
    categoryOf element = .classDef ↔ element.bases ≠ [] ∨ element.methods ≠ [] := by
  unfold categoryOf
  simp only [Bool.and_eq_true, List.isEmpty_iff]
  split_ifs with bare
  · simp [bare]
  · simpa [← Decidable.not_and_iff_not_or_not] using bare

/-- The element that the line tells: the new side's, or else the old side's. -/
def shown? (left right : Structure) (name : String) : Option (Category × Element) :=
  (right.find? name).or (left.find? name)

variable {left right : Structure} {name : String} {category : Category} {element : Element}

/-- A name that either side has is told in one line, under the category that the fields of the
element suggest. -/
theorem words_grepLines (here there : String)
    (shown : shown? left right name = some (category, element)) :
    (ElementReport.mk here there (left.diffElement right name)).grepLines.map secondWord? =
      [some (categoryOf element).word] := by
  have told : ∀ sigil : Char, sigil ≠ ' ' → ∀ file : String,
      [changeLine sigil (categoryOf element) element (some file)].map secondWord? =
        [some (categoryOf element).word] := by
    intro sigil h file
    rw [List.map_singleton, secondWord?_changeLine h]
  unfold shown? at shown
  unfold Structure.diffElement
  cases after : right.find? name with
  | some new =>
    rw [after] at shown
    obtain rfl : new = (category, element) := Option.some.inj shown
    cases before : left.find? name with
    | some old =>
      simp only
      split_ifs
      · exact told '=' (by decide) there
      · exact told '~' (by decide) there
    | none => exact told '+' (by decide) there
  | none =>
    rw [after] at shown
    have before : left.find? name = some (category, element) := shown
    rw [before]
    exact told '-' (by decide) here

/-- The line tells the category that the element was found under exactly when that is a class with
bases or methods, or a function with neither. -/
theorem words_grepLines_iff (here there : String)
    (shown : shown? left right name = some (category, element)) :
    (ElementReport.mk here there (left.diffElement right name)).grepLines.map secondWord? =
        [some category.word] ↔
      (category = .classDef ↔ element.bases ≠ [] ∨ element.methods ≠ []) := by
  have noImport : category ≠ .importDecl := by
    unfold shown? at shown
    rcases Option.or_eq_some_iff.1 shown with found | ⟨-, found⟩
    · exact (Structure.found_of_find? found).ne_importDecl
    · exact (Structure.found_of_find? found).ne_importDecl
  have guessed : categoryOf element ≠ .importDecl := by
    unfold categoryOf
    split_ifs <;> exact Category.noConfusion
  rw [words_grepLines here there shown, List.singleton_inj, Option.some_inj, Category.word_inj,
    ← categoryOf_eq_classDef]
  constructor
  · rintro rfl
    exact Iff.rfl
  · -- Of the two categories that are left, one is told by not being the other.
    intro same
    revert same noImport guessed
    generalize categoryOf element = guess
    cases guess <;> cases category <;> simp

end ElementReport

/-- A program of one class. -/
def Structure.ofClass (element : Element) : Structure := { blank with classes := [element] }

/-- The line of a class that went away tells a class, as it has a base. -/
theorem ElementReport.words_grepLines_iff_derived_class :
    shown? (.ofClass { Element.named "Circle" with bases := ["Shape"] }) .blank "Circle" =
      some (.classDef, { Element.named "Circle" with bases := ["Shape"] }) ∧
    (ElementReport.mk "old.py" "new.py"
      ((Structure.ofClass { Element.named "Circle" with bases := ["Shape"] }).diffElement .blank
        "Circle")).grepLines.map secondWord? = [some "class"] := by
  refine ⟨by decide, ?_⟩
  exact (words_grepLines_iff "old.py" "new.py" (show shown? _ _ "Circle" =
    some (.classDef, { Element.named "Circle" with bases := ["Shape"] }) by decide)).2 (by decide)

/-- A class with neither bases nor methods is told as a function on its own, and as a class in the
comparison of the structures. -/
theorem ElementReport.grepLines_bare_class :
    shown? .blank (.ofClass { Element.named "Empty" with line := some 3 }) "Empty" =
      some (.classDef, { Element.named "Empty" with line := some 3 }) ∧
    (ElementReport.mk "old.py" "new.py" (Structure.blank.diffElement
      (.ofClass { Element.named "Empty" with line := some 3 }) "Empty")).grepLines =
      ["+ function Empty new.py:3"] ∧
    (Report.of (.of "old.py" .blank)
      (.of "new.py" (.ofClass { Element.named "Empty" with line := some 3 }))
      (Structure.blank.diff
        (.ofClass { Element.named "Empty" with line := some 3 }))).grepLines =
      ["+ class Empty new.py:3"] := by
  decide

end CodeDelta
