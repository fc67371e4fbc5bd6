import CodeDelta.Diff.Structures
import CodeDelta.Proofs.Text.Joined
import CodeDelta.Render.Report
import Mathlib.Data.List.Basic

/-!
# Line breaks in rendered texts

A text of lines ends each of them with a line break, so it is read back line by line as long as no
line holds a break of its own (`linesOf_unlines`). The line of a change is made of a category, an
identity, and the file and number of a place; where none of the printed texts holds a break, the
format of lines shows every record in one line (`Report.linesOf_grep`).
-/

namespace CodeDelta

namespace Render

/-- The lines of a text, each of which a line break ends; what follows the last break is no line. -/
def linesOf (text : String) : List String :=
  ((Text.splitOnChar '\n' text.toList).dropLast).map String.ofList

/-- A text of that many lines, each with the break that ends it, and nothing else. -/
def IsLines (count : ℕ) (text : String) : Prop :=
  (linesOf text).length = count ∧ unlines (linesOf text) = text

instance (count : ℕ) (text : String) : Decidable (IsLines count text) :=
  inferInstanceAs (Decidable (_ ∧ _))

/-- A text without line breaks. -/
def Unbroken (text : String) : Prop := '\n' ∉ text.toList

instance (text : String) : Decidable (Unbroken text) := inferInstanceAs (Decidable (¬_))

/-! ## Lines and their breaks -/

/-- The lines of a text follow each other. -/
theorem unlines_append (lines others : List String) :
    unlines (lines ++ others) = unlines lines ++ unlines others := by
  induction lines with
  | nil => rw [List.nil_append, unlines, String.empty_append]
  | cons line rest ih =>
    rw [List.cons_append, unlines, unlines, ih, String.append_assoc, String.append_assoc,
      String.append_assoc]

/-- The text of one line. -/
theorem unlines_singleton (line : String) : unlines [line] = line ++ "\n" := by
  rw [unlines, unlines, String.append_empty]

/-- Lines without breaks are cut out of their text, before the empty end. -/
theorem splitOnChar_unlines {lines : List String} (h : ∀ line ∈ lines, Unbroken line) :
    Text.splitOnChar '\n' (unlines lines).toList = lines.map String.toList ++ [[]] := by
  induction lines with
  | nil => rfl
  | cons line rest ih =>
    have whole : (unlines (line :: rest)).toList =
        line.toList ++ '\n' :: (unlines rest).toList := by
      simp [unlines, String.toList_append]
    rw [whole, Text.splitOnChar_eq_splitOn,
      List.splitOn_append_cons_self_of_not_mem (h line List.mem_cons_self),
      ← Text.splitOnChar_eq_splitOn, ih fun line later => h line (List.mem_cons_of_mem _ later)]
    rfl

/-- Lines without breaks are read back from their text. -/
theorem linesOf_unlines {lines : List String} (h : ∀ line ∈ lines, Unbroken line) :
    linesOf (unlines lines) = lines := by
  unfold linesOf
  rw [splitOnChar_unlines h, List.dropLast_concat, List.map_map]
  exact List.map_id'' (fun line => String.ofList_toList) lines

/-- A text of lines without breaks has as many lines. -/
theorem isLines_unlines {lines : List String} (h : ∀ line ∈ lines, Unbroken line) :
    IsLines lines.length (unlines lines) := by
  unfold IsLines
  rw [linesOf_unlines h]
  exact ⟨rfl, rfl⟩

/-- The text of several lists of lines. -/
theorem unlines_flatMap {α : Type} (lines : α → List String) (xs : List α) :
    unlines (xs.flatMap lines) = String.join (xs.map fun x => unlines (lines x)) := by
  induction xs with
  | nil => rfl
  | cons x rest ih =>
    rw [List.flatMap_cons, unlines_append, ih, List.map_cons, String.join_cons]

/-- Only no lines at all make an empty text. -/
theorem unlines_eq_empty_iff {lines : List String} : unlines lines = "" ↔ lines = [] := by
  cases lines with
  | nil => exact iff_of_true rfl rfl
  | cons line rest =>
    refine iff_of_false (fun empty => ?_) (List.cons_ne_nil line rest)
    have chars := congrArg String.toList empty
    simp [unlines, String.toList_append] at chars

/-- A text of lines ends in a line break. -/
theorem getLast?_unlines {lines : List String} (h : lines ≠ []) :
    (unlines lines).toList.getLast? = some '\n' := by
  obtain ⟨before, last, rfl⟩ := List.eq_nil_or_concat' lines |>.resolve_left h
  rw [unlines_append]
  simp [unlines, String.toList_append]

/-! ## Texts without breaks -/

/-- A text joined from texts without breaks has none when its joint has none. -/
theorem unbroken_intercalate {joint : String} {parts : List String} (between : Unbroken joint)
    (h : ∀ part ∈ parts, Unbroken part) : Unbroken (joint.intercalate parts) :=
  Text.not_mem_intercalate between h

/-- Two texts without breaks have none together. -/
theorem unbroken_append {text more : String} (h : Unbroken text) (h' : Unbroken more) :
    Unbroken (text ++ more) := by
  unfold Unbroken at *
  rw [String.toList_append, List.mem_append, not_or]
  exact ⟨h, h'⟩

/-- The digits of a number hold no break. -/
theorem unbroken_toString (n : ℕ) : Unbroken (toString n) := by
  show '\n' ∉ n.repr.toList
  rw [Nat.toList_repr]
  intro inside
  exact absurd (Nat.isDigit_of_mem_toDigits (by decide) (by decide) inside) (by decide)

/-- The place of a line holds no break when the name of the file has none. -/
theorem unbroken_location {file : Option String} {line : Option ℕ} {place : String}
    (h : ∀ name ∈ file, Unbroken name) (shown : location file line = some place) :
    Unbroken place := by
  cases file with
  | none => exact absurd shown (by simp [location])
  | some name =>
    have named := h name rfl
    cases line with
    | none =>
      obtain rfl := Option.some.inj shown
      exact named
    | some n =>
      obtain rfl := Option.some.inj shown
      exact unbroken_append (unbroken_append named (by decide)) (unbroken_toString n)

end Render

open Render

/-- What is printed of an element in a line holds no break. -/
structure Element.Unbroken (category : Category) (element : Element) : Prop where
  /-- The identity. -/
  identity : Render.Unbroken (element.identity category)
  /-- The file, when the element names one. -/
  file : ∀ name ∈ element.file, Render.Unbroken name

instance (category : Category) (element : Element) : Decidable (element.Unbroken category) :=
  decidable_of_iff (Render.Unbroken (element.identity category) ∧
    ∀ name ∈ element.file, Render.Unbroken name) ⟨fun h => ⟨h.1, h.2⟩, fun h => ⟨h.1, h.2⟩⟩

/-- What is printed of the elements holds no break. -/
def Structure.Unbroken (structure_ : Structure) : Prop :=
  ∀ category, ∀ element ∈ structure_.elements category, element.Unbroken category

/-- What lines print of a report holds no break. -/
structure Report.Unbroken (report : Report) : Prop where
  /-- The address of the old side. -/
  left : Render.Unbroken report.left.uri
  /-- The address of the new side. -/
  right : Render.Unbroken report.right.uri
  /-- The identities and files of the records. -/
  records : ∀ entry ∈ report.detail.entries, entry.2.element.Unbroken entry.1

/-- The line of a change holds no break when what it prints has none. -/
theorem Render.unbroken_changeLine {sigil : Char} (mark : sigil ≠ '\n') {category : Category}
    {element : Element} (h : element.Unbroken category) {fallback : Option String}
    (other : ∀ name ∈ fallback, Render.Unbroken name) :
    Render.Unbroken (changeLine sigil category element fallback) := by
  have file : ∀ name ∈ element.file.or fallback, Render.Unbroken name := by
    intro name found
    rcases Option.or_eq_some_iff.1 found with own | ⟨-, given⟩
    · exact h.file name own
    · exact other name given
  have sign : Render.Unbroken sigil.toString := by
    simpa [Render.Unbroken, Char.toString] using mark.symm
  have word : Render.Unbroken category.word := by cases category <;> decide
  have words : ∀ part ∈ [sigil.toString, category.word, element.identity category],
      Render.Unbroken part :=
    List.forall_mem_cons.2 ⟨sign, List.forall_mem_cons.2 ⟨word,
      List.forall_mem_singleton.2 h.identity⟩⟩
  refine unbroken_intercalate (by decide) fun part inside => ?_
  rcases List.mem_append.1 inside with told | place
  · exact words part told
  · exact unbroken_location file (Option.mem_toList.1 place)

namespace Report

variable {report : Report}

/-- The file that a side stands for holds no break when its address has none. -/
theorem unbroken_sideFile {side : Side} (h : Render.Unbroken side.uri) :
    ∀ name ∈ sideFile side, Render.Unbroken name := by
  intro name found
  unfold sideFile at found
  split at found
  · exact absurd found (Option.not_mem_none name)
  · obtain rfl := Option.some.inj found
    exact h

/-- No line of a report holds a break. -/
theorem Unbroken.grepLines (h : report.Unbroken) :
    ∀ line ∈ report.grepLines, Render.Unbroken line := by
  intro line inside
  obtain ⟨entry, member, rfl⟩ := List.mem_map.1 inside
  have mark : entry.2.kind.sigil ≠ '\n' := by cases entry.2.kind <;> decide
  refine unbroken_changeLine mark (h.records entry member) ?_
  split
  · exact unbroken_sideFile h.left
  · exact unbroken_sideFile h.right

/-- A report is read back from the format of lines, one line for each record. -/
theorem linesOf_grep (h : report.Unbroken) (color compact : Bool) :
    linesOf (report.render ⟨.grep, color, compact⟩) = report.grepLines :=
  linesOf_unlines h.grepLines

end Report

end CodeDelta
