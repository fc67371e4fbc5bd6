import CodeDelta.Text.Blank
import Mathlib.Data.List.DropRight

/-!
# What trimming leaves

Trimming takes the blanks from both ends of a text and nothing else. So nothing is left of a text
only when it is blank throughout (`trim_eq_nil_iff`), a blank is left only where it stands between
characters that are not blank (`mem_trim_iff`), and what is left neither starts nor ends with a
blank (`trim_eq_iff`).
-/

namespace CodeDelta.Text

variable {text before after : List Char} {c : Char}

/-- Trimming at the right end is the library's. -/
theorem trimRight_eq_rdropWhile (text : List Char) : trimRight text = text.rdropWhile isBlank := rfl

/-- Nothing is left of a text exactly when it is blank. -/
theorem trim_eq_nil_iff : trim text = [] ↔ ∀ c ∈ text, isBlank c = true := by
  unfold trim
  rw [trimRight_eq_rdropWhile, List.rdropWhile_eq_nil_iff]
  constructor
  · intro blank
    have nothing : text.dropWhile isBlank = [] := by
      by_contra some
      exact absurd (blank _ (List.head_mem some))
        (Bool.eq_false_iff.1 (List.head_dropWhile_not isBlank some))
    exact List.dropWhile_eq_nil_iff.1 nothing
  · exact fun blank c inside => blank c ((List.dropWhile_sublist _).subset inside)

/-! ## The two ends -/

/-- A blank that is left when the blanks in front are gone has something before it. -/
theorem exists_before_of_dropWhile (blank : isBlank c = true)
    (h : text.dropWhile isBlank = before ++ c :: after) : ∃ d ∈ before, isBlank d = false := by
  have first := List.head?_dropWhile_not isBlank text
  rw [h] at first
  cases before with
  | nil => exact absurd (first.symm.trans blank) Bool.false_ne_true
  | cons d rest => exact ⟨d, List.mem_cons_self, first⟩

/-- A blank that is left when the blanks at the end are gone has something behind it. -/
theorem exists_after_of_rdropWhile (blank : isBlank c = true)
    (h : text.rdropWhile isBlank = before ++ c :: after) : ∃ d ∈ after, isBlank d = false := by
  have mirrored : text.reverse.dropWhile isBlank = after.reverse ++ c :: before.reverse := by
    have reversed := congrArg List.reverse h
    simpa [List.rdropWhile] using reversed
  obtain ⟨d, inside, shown⟩ := exists_before_of_dropWhile blank mirrored
  exact ⟨d, List.mem_reverse.1 inside, shown⟩

/-- Blanks in front are only taken up to the first character that is none. -/
theorem dropWhile_append_of_exists (shown : ∃ d ∈ before, isBlank d = false) (after : List Char) :
    (before ++ after).dropWhile isBlank = before.dropWhile isBlank ++ after := by
  rw [List.dropWhile_append, if_neg]
  simpa using shown

/-- Blanks at the end are only taken down to the last character that is none. -/
theorem rdropWhile_append_of_exists (before : List Char) (shown : ∃ d ∈ after, isBlank d = false) :
    (before ++ after).rdropWhile isBlank = before ++ after.rdropWhile isBlank := by
  obtain ⟨d, inside, shown⟩ := shown
  unfold List.rdropWhile
  rw [List.reverse_append, dropWhile_append_of_exists ⟨d, List.mem_reverse.2 inside, shown⟩,
    List.reverse_append, List.reverse_reverse]

/-- What stands up to a character that is not blank is not touched at the end. -/
theorem trimRight_append_cons (shown : isBlank c = false) (before after : List Char) :
    trimRight (before ++ c :: after) = before ++ c :: trimRight after := by
  have kept : (c :: after).rdropWhile isBlank = c :: after.rdropWhile isBlank := by
    unfold List.rdropWhile
    rw [List.reverse_cons, List.dropWhile_append]
    split_ifs with nothing
    · rw [List.isEmpty_iff.1 nothing, List.dropWhile_cons_of_neg (Bool.eq_false_iff.1 shown)]
      rfl
    · rw [List.reverse_append]
      rfl
  rw [trimRight_eq_rdropWhile, trimRight_eq_rdropWhile,
    rdropWhile_append_of_exists before ⟨c, List.mem_cons_self, shown⟩, kept]

/-- A blank is left where something that is not blank stands on either side of it. -/
theorem mem_trim_iff (blank : isBlank c = true) :
    c ∈ trim text ↔ ∃ before after, text = before ++ c :: after ∧
      (∃ d ∈ before, isBlank d = false) ∧ ∃ d ∈ after, isBlank d = false := by
  unfold trim
  rw [trimRight_eq_rdropWhile]
  constructor
  · -- What is left is cut at the blank; what was taken goes back to the two outer parts.
    intro left
    obtain ⟨before, after, cut⟩ := List.append_of_mem left
    obtain ⟨e, behind, shown'⟩ := exists_after_of_rdropWhile blank cut
    let taken := (text.dropWhile isBlank).rtakeWhile isBlank
    have kept : text.dropWhile isBlank = before ++ c :: (after ++ taken) := by
      calc text.dropWhile isBlank
          = (text.dropWhile isBlank).rdropWhile isBlank ++ taken :=
            List.rdropWhile_append_rtakeWhile.symm
        _ = before ++ c :: (after ++ taken) := by rw [cut, List.append_assoc, List.cons_append]
    obtain ⟨d, ahead, shown⟩ := exists_before_of_dropWhile blank kept
    refine ⟨text.takeWhile isBlank ++ before, after ++ taken, ?_,
      ⟨d, List.mem_append_right _ ahead, shown⟩, ⟨e, List.mem_append_left _ behind, shown'⟩⟩
    rw [List.append_assoc, ← kept, List.takeWhile_append_dropWhile]
  · rintro ⟨before, after, rfl, ahead, behind⟩
    rw [dropWhile_append_of_exists ahead, List.append_cons, rdropWhile_append_of_exists _ behind]
    simp

/-- Blanks in front are taken. -/
theorem trim_append_left (blank : ∀ c ∈ before, isBlank c = true) (text : List Char) :
    trim (before ++ text) = trim text := by
  unfold trim
  rw [List.dropWhile_append_of_pos blank]

/-- Blanks behind a character that is none are taken. -/
theorem trim_append_right (shown : ∃ d ∈ text, isBlank d = false)
    (blank : ∀ c ∈ after, isBlank c = true) : trim (text ++ after) = trim text := by
  unfold trim trimRight
  rw [dropWhile_append_of_exists shown, List.reverse_append,
    List.dropWhile_append_of_pos fun c inside => blank c (List.mem_reverse.1 inside)]

/-- Nothing is taken from a text that neither starts nor ends with a blank. -/
theorem trim_of_ends (first : ∀ c ∈ text.head?, isBlank c = false)
    (last : ∀ c ∈ text.getLast?, isBlank c = false) : trim text = text := by
  have front : text.dropWhile isBlank = text := by
    refine List.dropWhile_eq_self_iff.2 fun filled => Bool.eq_false_iff.1 (first _ ?_)
    exact List.head?_eq_getElem?.trans (List.getElem?_eq_getElem filled)
  unfold trim
  rw [front, trimRight_eq_rdropWhile, List.rdropWhile_eq_self_iff]
  exact fun filled => Bool.eq_false_iff.1 (last _ (List.getLast?_eq_some_getLast filled))

/-- What is left does not start with a blank. -/
theorem not_isBlank_head?_trim (text : List Char) : ∀ c ∈ (trim text).head?, isBlank c = false := by
  intro c leads
  obtain ⟨taken, whole⟩ := List.rdropWhile_prefix isBlank (text.dropWhile isBlank)
  have first := List.head?_dropWhile_not isBlank text
  have kept : (text.dropWhile isBlank).head? = some c := by
    rw [← whole, List.head?_append]
    exact Option.or_eq_some_iff.2 (Or.inl leads)
  rw [kept] at first
  exact first

/-- What is left does not end with a blank. -/
theorem not_isBlank_getLast?_trim (text : List Char) :
    ∀ c ∈ (trim text).getLast?, isBlank c = false := by
  intro c ends
  have filled : trim text ≠ [] := by
    rintro empty
    rw [empty] at ends
    exact absurd ends.symm (Option.some_ne_none c)
  have last := List.rdropWhile_last_not isBlank (text.dropWhile isBlank) filled
  have same : (trim text).getLast filled = c :=
    Option.some.inj ((List.getLast?_eq_some_getLast filled).symm.trans ends)
  exact Bool.eq_false_iff.2 (same ▸ last)

/-- Trimming leaves the part that neither starts nor ends with a blank when all around it is
blank. -/
theorem trim_eq_iff {left : List Char} :
    trim text = left ↔ ∃ before after, text = before ++ left ++ after ∧
      (∀ c ∈ before ++ after, isBlank c = true) ∧
      (∀ c ∈ left.head?, isBlank c = false) ∧ ∀ c ∈ left.getLast?, isBlank c = false := by
  constructor
  · rintro rfl
    refine ⟨text.takeWhile isBlank, (text.dropWhile isBlank).rtakeWhile isBlank, ?_, ?_,
      not_isBlank_head?_trim text, not_isBlank_getLast?_trim text⟩
    · unfold trim
      rw [trimRight_eq_rdropWhile, List.append_assoc, List.rdropWhile_append_rtakeWhile,
        List.takeWhile_append_dropWhile]
    · exact List.forall_mem_append.2
        ⟨fun _ => List.mem_takeWhile_imp, fun _ => List.mem_rtakeWhile_imp⟩
  · rintro ⟨before, after, rfl, blank, first, last⟩
    obtain ⟨ahead, behind⟩ := List.forall_mem_append.1 blank
    rw [List.append_assoc, trim_append_left ahead]
    cases left with
    | nil => exact trim_eq_nil_iff.2 behind
    | cons c rest =>
      rw [trim_append_right ⟨c, List.mem_cons_self, first c rfl⟩ behind, trim_of_ends first last]

end CodeDelta.Text
