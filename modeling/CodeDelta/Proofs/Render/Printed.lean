import CodeDelta.Proofs.Diff.Records
import CodeDelta.Proofs.Render.Entries
import CodeDelta.Proofs.Render.LineBreaks

/-!
# One printed line per change

What is printed of a comparison in the format of lines is read back as one line for each change
that the summary counts, as long as there is one. A text that does not end in a line break is
printed with one more, and the text of a comparison without changes is such a text: it is empty. So
a comparison without changes prints an empty line (`isLines_printed_grep_iff`).
-/

namespace CodeDelta

open Render

/-- A text of lines is printed as it is, an empty text as an empty line. -/
theorem Render.printed_unlines (lines : List String) :
    printed (unlines lines) = if lines = [] then "\n" else unlines lines := by
  split_ifs with none
  · rw [none]
    rfl
  · exact if_pos (getLast?_unlines none)

variable {left right : Structure} {here there : String}

/-- What lines print of a report holds no break when the elements and the addresses have none. -/
theorem Structure.Unbroken.report (old : left.Unbroken) (new : right.Unbroken)
    (from_ : Render.Unbroken here) (to_ : Render.Unbroken there) :
    (left.report right here there).Unbroken where
  left := from_
  right := to_
  records := by
    rintro ⟨category, record⟩ inside
    have record_ : record ∈ (left.diff right).detail.get category := Detail.mem_entries.1 inside
    rw [get_detail_diff] at record_
    rcases mem_of_mem_diffCategory record_ with carried | carried
    · exact old category _ carried
    · exact new category _ carried

/-- In the format of lines, what is printed of a comparison is one line for each change and nothing
else exactly when there is a change. -/
theorem isLines_printed_grep_iff (old : left.Unbroken) (new : right.Unbroken)
    (from_ : Render.Unbroken here) (to_ : Render.Unbroken there) (color compact : Bool) :
    IsLines (left.diff right).summary.total
        (printed ((left.report right here there).render ⟨.grep, color, compact⟩)) ↔
      (left.diff right).summary.total ≠ 0 := by
  have unbroken := (old.report new from_ to_).grepLines
  have count : (left.report right here there).grepLines.length =
      (left.diff right).summary.total := by
    rw [total_summary_diff]
    exact List.length_map _
  show IsLines _ (printed (unlines (left.report right here there).grepLines)) ↔ _
  rw [← count, printed_unlines, ne_eq, List.length_eq_zero_iff]
  split_ifs with none
  · -- The empty line that is printed is one line more than there are changes.
    rw [none]
    exact iff_of_false (by decide) (fun some => some rfl)
  · exact iff_of_true (isLines_unlines unbroken) none

/-- A program of one function. -/
def Structure.ofFunction (element : Element) : Structure := { blank with functions := [element] }

/-- What lines print of a program of one function holds no break when that of the function has
none. -/
theorem Structure.unbroken_ofFunction {element : Element} (h : element.Unbroken .function) :
    (ofFunction element).Unbroken := by
  rintro (_ | _ | _) other inside
  · obtain rfl := List.mem_singleton.1 inside
    exact h
  · exact absurd inside List.not_mem_nil
  · exact absurd inside List.not_mem_nil

/-- A function that moved is printed in one line. -/
theorem isLines_printed_grep_iff_moved :
    (Structure.ofFunction { Element.named "run" with line := some 1 }).Unbroken ∧
    (Structure.ofFunction { Element.named "run" with line := some 4 }).Unbroken ∧
    Render.Unbroken "old.py" ∧ Render.Unbroken "new.py" ∧
    IsLines 1 (printed (((Structure.ofFunction { Element.named "run" with line := some 1 }).report
      (Structure.ofFunction { Element.named "run" with line := some 4 }) "old.py" "new.py").render
        ⟨.grep, false, false⟩)) := by
  have old : (Structure.ofFunction { Element.named "run" with line := some 1 }).Unbroken :=
    Structure.unbroken_ofFunction ⟨by decide, fun _ h => absurd h (Option.not_mem_none _)⟩
  have new : (Structure.ofFunction { Element.named "run" with line := some 4 }).Unbroken :=
    Structure.unbroken_ofFunction ⟨by decide, fun _ h => absurd h (Option.not_mem_none _)⟩
  refine ⟨old, new, by decide, by decide, ?_⟩
  exact (isLines_printed_grep_iff old new (by decide) (by decide) false false).2 (by decide)

/-- Of two equal programs nothing is counted, and one line is printed. -/
theorem not_isLines_printed_grep_unchanged :
    (Structure.blank.diff .blank).summary.total = 0 ∧
    printed ((Structure.blank.report .blank "old.py" "new.py").render ⟨.grep, false, false⟩) =
      "\n" ∧
    ¬IsLines (Structure.blank.diff .blank).summary.total
      (printed ((Structure.blank.report .blank "old.py" "new.py").render
        ⟨.grep, false, false⟩)) := by
  decide

end CodeDelta
