import CodeDelta.Text.Blank

/-!
# Pieces of a text

A text is cut at a mark, at its first or last occurrence or at all of them. Cutting at all of them
is the library's `List.splitOn`, so pieces without the mark come back from the text they are joined
to; the first occurrence is the one that no mark precedes, the last the one that no mark follows.
-/

namespace CodeDelta.Text

/-- Cutting at a mark is cutting a list at an element. -/
theorem splitOnChar_eq_splitOn (mark : Char) (text : List Char) :
    splitOnChar mark text = text.splitOn mark := by
  induction text with
  | nil => rfl
  | cons c rest ih =>
    rw [List.splitOn_cons_eq_if_modifyHead, splitOnChar, ih]
    cases pieces : rest.splitOn mark with
    | nil => exact absurd pieces (List.splitOn_ne_nil mark rest)
    | cons piece pieces => rfl

/-- A piece between some elements of a list has elements of the list, and none of those. -/
theorem of_mem_splitOnP {α : Type} {p : α → Bool} {xs piece : List α}
    (h : piece ∈ xs.splitOnP p) : piece ⊆ xs ∧ ∀ x ∈ piece, p x = false := by
  induction xs generalizing piece with
  | nil =>
    rw [List.splitOnP_nil, List.mem_singleton] at h
    rw [h]
    exact ⟨List.nil_subset [], nofun⟩
  | cons x rest ih =>
    have later : ∀ {piece}, piece ∈ rest.splitOnP p →
        piece ⊆ x :: rest ∧ ∀ x ∈ piece, p x = false := fun inside =>
      ⟨List.subset_cons_of_subset x (ih inside).1, (ih inside).2⟩
    rw [List.splitOnP_cons_eq_if_modifyHead] at h
    by_cases cut : p x = true
    · rw [if_pos cut, List.mem_cons] at h
      rcases h with rfl | h
      · exact ⟨List.nil_subset _, nofun⟩
      · exact later h
    · rw [if_neg cut] at h
      -- The element goes to the front of the first piece of the rest.
      obtain ⟨first, more, pieces⟩ := List.exists_cons_of_ne_nil (List.splitOnP_ne_nil p rest)
      rw [pieces, List.modifyHead_cons, List.mem_cons] at h
      rcases h with rfl | h
      · obtain ⟨inside, apart⟩ := ih (by rw [pieces]; exact List.mem_cons_self)
        exact ⟨List.cons_subset_cons x inside,
          List.forall_mem_cons.2 ⟨Bool.eq_false_iff.2 cut, apart⟩⟩
      · exact later (by rw [pieces]; exact List.mem_cons_of_mem first h)

/-- No piece holds the mark. -/
theorem not_mem_of_mem_splitOnChar {mark : Char} {text piece : List Char}
    (h : piece ∈ splitOnChar mark text) : mark ∉ piece := by
  rw [splitOnChar_eq_splitOn, List.splitOn_eq_splitOnP] at h
  intro inside
  have other : (mark == mark) = false := (of_mem_splitOnP h).2 mark inside
  exact absurd (beq_self_eq_true mark) (Bool.eq_false_iff.1 other)

/-- Every character but the marks is in a piece. -/
theorem exists_piece_of_mem {mark c : Char} {text : List Char} (h : c ∈ text) (other : c ≠ mark) :
    ∃ piece ∈ splitOnChar mark text, c ∈ piece := by
  induction text with
  | nil => exact absurd h List.not_mem_nil
  | cons first rest ih =>
    rw [splitOnChar]
    by_cases same : (first == mark) = true
    · rw [if_pos same]
      rcases List.mem_cons.1 h with rfl | h
      · exact absurd (eq_of_beq same) other
      · obtain ⟨piece, inside, hc⟩ := ih h
        exact ⟨piece, List.mem_cons_of_mem [] inside, hc⟩
    · rw [if_neg same]
      -- The character goes to the front of the first piece of the rest.
      cases pieces : splitOnChar mark rest with
      | nil =>
        rcases List.mem_cons.1 h with rfl | h
        · exact ⟨[c], List.mem_cons_self, List.mem_cons_self⟩
        · obtain ⟨piece, inside, -⟩ := ih h
          rw [pieces] at inside
          exact absurd inside List.not_mem_nil
      | cons piece later =>
        rcases List.mem_cons.1 h with rfl | h
        · exact ⟨c :: piece, List.mem_cons_self, List.mem_cons_self⟩
        · obtain ⟨found, inside, hc⟩ := ih h
          rw [pieces] at inside
          rcases List.mem_cons.1 inside with rfl | inside
          · exact ⟨first :: found, List.mem_cons_self, List.mem_cons_of_mem first hc⟩
          · exact ⟨found, List.mem_cons_of_mem _ inside, hc⟩

/-- A text has no last mark only when it has none. -/
theorem splitLast?_eq_none_iff {mark : Char} {text : List Char} :
    splitLast? mark text = none ↔ mark ∉ text := by
  induction text with
  | nil => exact iff_of_true rfl List.not_mem_nil
  | cons c rest ih =>
    rw [splitLast?, List.mem_cons, not_or, ← ih]
    cases later : splitLast? mark rest with
    | some parts => simp only [reduceCtorEq, and_false]
    | none =>
      by_cases same : (c == mark) = true
      · have equal : mark = c := (eq_of_beq same).symm
        rw [if_pos same]
        simp only [reduceCtorEq, equal, not_true_eq_false, false_and]
      · have different : mark ≠ c := by
          rintro rfl
          exact same (beq_self_eq_true mark)
        simp only [if_neg same, different, not_false_eq_true, and_self]

/-- A text is cut at the mark that no mark follows. -/
theorem splitLast?_append_cons {mark : Char} {after : List Char} (h : mark ∉ after)
    (before : List Char) : splitLast? mark (before ++ mark :: after) = some (before, after) := by
  induction before with
  | nil =>
    rw [List.nil_append, splitLast?, splitLast?_eq_none_iff.2 h]
    exact if_pos (beq_self_eq_true mark)
  | cons c before ih => rw [List.cons_append, splitLast?, ih]

/-- The parts around the last mark make up the text, and no mark stands in the second one. -/
theorem eq_of_splitLast? {mark : Char} {text before after : List Char}
    (h : splitLast? mark text = some (before, after)) :
    text = before ++ mark :: after ∧ mark ∉ after := by
  induction text generalizing before with
  | nil => exact absurd h (Option.some_ne_none _).symm
  | cons c rest ih =>
    rw [splitLast?] at h
    cases later : splitLast? mark rest with
    | some parts =>
      rw [later, Option.some_inj, Prod.mk.injEq] at h
      obtain ⟨rfl, rfl⟩ := h
      obtain ⟨whole, absent⟩ := ih later
      exact ⟨congrArg (c :: ·) whole, absent⟩
    | none =>
      rw [later] at h
      by_cases same : (c == mark) = true
      · rw [if_pos same, Option.some_inj, Prod.mk.injEq] at h
        obtain ⟨rfl, rfl⟩ := h
        exact ⟨by rw [eq_of_beq same, List.nil_append], splitLast?_eq_none_iff.1 later⟩
      · rw [if_neg same] at h
        exact absurd h (Option.some_ne_none _).symm

/-- A text has no first mark only when it has none. -/
theorem splitFirst?_eq_none_iff {mark : Char} {text : List Char} :
    splitFirst? mark text = none ↔ mark ∉ text := by
  induction text with
  | nil => exact iff_of_true rfl List.not_mem_nil
  | cons c rest ih =>
    rw [splitFirst?, List.mem_cons, not_or, ← ih]
    by_cases same : (c == mark) = true
    · have equal : mark = c := (eq_of_beq same).symm
      rw [if_pos same]
      simp only [reduceCtorEq, equal, not_true_eq_false, false_and]
    · have different : mark ≠ c := by
        rintro rfl
        exact same (beq_self_eq_true mark)
      simp only [if_neg same, different, not_false_eq_true, true_and, Option.map_eq_none_iff]

/-- A text is cut at the mark that no mark precedes. -/
theorem splitFirst?_append_cons {mark : Char} {before : List Char} (h : mark ∉ before)
    (after : List Char) : splitFirst? mark (before ++ mark :: after) = some (before, after) := by
  induction before with
  | nil => exact if_pos (beq_self_eq_true mark)
  | cons c before ih =>
    rw [List.mem_cons, not_or] at h
    have different : ¬(c == mark) = true := fun same => h.1 (eq_of_beq same).symm
    rw [List.cons_append, splitFirst?, if_neg different, ih h.2]
    rfl

/-- The parts around the first mark make up the text, and no mark stands in the first one. -/
theorem eq_of_splitFirst? {mark : Char} {text before after : List Char}
    (h : splitFirst? mark text = some (before, after)) :
    text = before ++ mark :: after ∧ mark ∉ before := by
  induction text generalizing before with
  | nil => exact absurd h.symm (Option.some_ne_none _)
  | cons c rest ih =>
    rw [splitFirst?] at h
    by_cases same : (c == mark) = true
    · rw [if_pos same, Option.some_inj, Prod.mk.injEq] at h
      obtain ⟨rfl, rfl⟩ := h
      exact ⟨by rw [eq_of_beq same, List.nil_append], List.not_mem_nil⟩
    · rw [if_neg same] at h
      obtain ⟨⟨first, last⟩, found, parts⟩ := Option.map_eq_some_iff.1 h
      obtain ⟨rfl, rfl⟩ := Prod.mk.inj parts
      obtain ⟨rfl, absent⟩ := ih found
      refine ⟨rfl, ?_⟩
      rw [List.mem_cons, not_or]
      exact ⟨fun equal => same (by rw [equal, beq_self_eq_true]), absent⟩

/-- What follows a lead. -/
theorem dropLead?_append (lead text : List Char) : dropLead? lead (lead ++ text) = some text := by
  induction lead with
  | nil => cases text <;> rfl
  | cons c lead ih =>
    rw [List.cons_append, dropLead?, if_pos (beq_self_eq_true c), ih]

/-- A lead is found only in front of what follows it. -/
theorem eq_of_dropLead? {lead text rest : List Char} (h : dropLead? lead text = some rest) :
    text = lead ++ rest := by
  induction lead generalizing text with
  | nil => exact Option.some_inj.1 h
  | cons c lead ih =>
    cases text with
    | nil => exact absurd h.symm (Option.some_ne_none rest)
    | cons d text =>
      rw [dropLead?] at h
      by_cases same : (c == d) = true
      · rw [if_pos same] at h
        rw [ih h, eq_of_beq same, List.cons_append]
      · rw [if_neg same] at h
        exact absurd h.symm (Option.some_ne_none rest)

end CodeDelta.Text
