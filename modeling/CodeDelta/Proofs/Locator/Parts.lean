import CodeDelta.Proofs.Locator.Markers
import CodeDelta.Proofs.Text.Split

/-!
# What a split leaves

Whatever the number of markers, a text is split at one of its colons, which opens no marker, and
leaves at most one marker on each side (`Separates`, `separates_of_splitFor?`). The splits are taken
one by one: a plain split passes over parts without colons and over the colons of drives; with one
or two markers the parts around them are put together again.
-/

namespace CodeDelta.Locator

open Text

/-- A plain split passes over a part without colons. -/
theorem splitPlainFrom_append {part : List Char} (h : ':' ∉ part) (before rest : List Char) :
    splitPlainFrom before (part ++ rest) = splitPlainFrom (part.reverse ++ before) rest := by
  induction part generalizing before with
  | nil => rfl
  | cons c part ih =>
    rw [List.mem_cons, not_or] at h
    have noColon : ¬(c == ':' && !closesDrive before (part ++ rest)) = true := fun here =>
      h.1 (eq_of_beq (Bool.and_eq_true_iff.1 here).1).symm
    rw [List.cons_append, splitPlainFrom, if_neg noColon, ih h.2, List.reverse_cons,
      List.append_assoc]
    rfl

/-- A plain split is made at a colon that closes no drive. -/
theorem splitPlainFrom_colon {before after : List Char} (h : closesDrive before after = false) :
    splitPlainFrom before (':' :: after) = some (before.reverse, after) := by
  rw [splitPlainFrom, h]
  rfl

/-- A plain split passes over a colon that closes a drive. -/
theorem splitPlainFrom_driveColon {before after : List Char}
    (h : closesDrive before after = true) :
    splitPlainFrom before (':' :: after) = splitPlainFrom (':' :: before) after := by
  rw [splitPlainFrom, h]
  rfl

/-- The parts that a plain split finds make up what was passed and what was not. -/
theorem eq_of_splitPlainFrom {before text left right : List Char}
    (h : splitPlainFrom before text = some (left, right)) :
    before.reverse ++ text = left ++ ':' :: right := by
  induction text generalizing before with
  | nil => exact absurd h.symm (Option.some_ne_none _)
  | cons c after ih =>
    rw [splitPlainFrom] at h
    by_cases here : (c == ':' && !closesDrive before after) = true
    · rw [if_pos here, Option.some_inj, Prod.mk.injEq] at h
      obtain ⟨rfl, rfl⟩ := h
      rw [eq_of_beq (Bool.and_eq_true_iff.1 here).1]
    · rw [if_neg here] at h
      rw [← ih h, List.reverse_cons, List.append_assoc]
      rfl

/-- The parts of a plain split make up the text. -/
theorem eq_of_splitPlain? {text left right : List Char}
    (h : splitPlain? text = some (left, right)) : text = left ++ ':' :: right := by
  unfold splitPlain? at h
  split at h
  · exact (eq_of_splitFirst? h).1
  · exact eq_of_splitPlainFrom h

/-- Two parts of a text around a colon that opens no marker, each with at most one marker. -/
structure Separates (text left right : List Char) : Prop where
  /-- The parts make up the text. -/
  whole : text = left ++ ':' :: right
  /-- The colon opens no marker. -/
  apart : ¬slashes <+: right
  /-- At most one marker on the left. -/
  left_le : countMarkers left ≤ 1
  /-- At most one marker on the right. -/
  right_le : countMarkers right ≤ 1

/-- The markers of a separated text are those of its parts. -/
theorem countMarkers_append_separator {left right : List Char} (h : ¬slashes <+: right) :
    countMarkers (left ++ ':' :: right) = countMarkers left + countMarkers right := by
  rw [countMarkers_append_colon, countMarkers_colon h]

/-- A split without markers. -/
theorem separates_of_splitPlain? {text left right : List Char} (none_ : countMarkers text = 0)
    (h : splitPlain? text = some (left, right)) : Separates text left right := by
  have whole := eq_of_splitPlain? h
  subst whole
  have apart := not_slashes_of_countMarkers none_
  rw [countMarkers_append_separator apart] at none_
  exact ⟨rfl, apart, by omega, by omega⟩

/-- A split with one marker: a colon before it separates and leaves the marker to the right side;
otherwise what follows the marker is split plainly. -/
theorem separates_of_splitOneMarker? {text left right : List Char} (one : countMarkers text = 1)
    (h : splitOneMarker? text = some (left, right)) : Separates text left right := by
  unfold splitOneMarker? at h
  cases cut : splitMarker? text with
  | none =>
    rw [cut] at h
    exact absurd h.symm (Option.some_ne_none _)
  | some parts =>
    obtain ⟨before, after⟩ := parts
    obtain ⟨rfl, clear⟩ := eq_of_splitMarker? cut
    rw [cut] at h
    dsimp only at h
    rw [countMarkers_append_marker, clear] at one
    cases last : splitLast? ':' before with
    | some parts =>
      -- The colon before the marker separates, and the right side has the marker.
      obtain ⟨lead, scheme⟩ := parts
      rw [last, Option.some_inj, Prod.mk.injEq] at h
      obtain ⟨rfl, rfl⟩ := h
      obtain ⟨rfl, -⟩ := eq_of_splitLast? last
      have apart : ¬slashes <+: scheme := not_slashes_of_countMarkers clear
      rw [countMarkers_append_separator apart] at clear
      refine ⟨?_, ?_, by omega, ?_⟩
      · simp only [List.append_assoc, List.cons_append]
      · rw [List.append_assoc]
        exact fun opens => apart (slashes_isPrefix_append_colon.1 opens)
      · rw [countMarkers_append_marker]
        omega
    | none =>
      -- What follows the marker has none, and the left side has it.
      rw [last] at h
      obtain ⟨⟨lead, rest⟩, found, parts⟩ := Option.map_eq_some_iff.1 h
      dsimp only at parts
      obtain ⟨rfl, rfl⟩ := Prod.mk.inj parts
      obtain ⟨whole, apart, lead_le, rest_le⟩ := separates_of_splitPlain? (by omega) found
      subst whole
      rw [countMarkers_append_separator apart] at one
      refine ⟨?_, apart, ?_, rest_le⟩
      · simp only [List.append_assoc]
      · rw [countMarkers_append_marker]
        omega

/-- A split with two markers, at a colon between them. -/
theorem separates_of_splitTwoMarkers? {text left right : List Char} (two : countMarkers text = 2)
    (h : splitTwoMarkers? text = some (left, right)) : Separates text left right := by
  unfold splitTwoMarkers? at h
  cases cut : splitMarker? text with
  | none =>
    rw [cut] at h
    exact absurd h.symm (Option.some_ne_none _)
  | some parts =>
    obtain ⟨before, after⟩ := parts
    obtain ⟨rfl, clear⟩ := eq_of_splitMarker? cut
    rw [cut] at h
    dsimp only at h
    cases again : splitMarker? after with
    | none =>
      rw [again] at h
      exact absurd h.symm (Option.some_ne_none _)
    | some parts =>
      obtain ⟨middle, body⟩ := parts
      obtain ⟨rfl, between⟩ := eq_of_splitMarker? again
      rw [again] at h
      -- The last colon between the markers separates, and each side has one of them.
      obtain ⟨⟨lead, scheme⟩, last, parts⟩ := Option.map_eq_some_iff.1 h
      dsimp only at parts
      obtain ⟨rfl, rfl⟩ := Prod.mk.inj parts
      obtain ⟨rfl, -⟩ := eq_of_splitLast? last
      have apart : ¬slashes <+: scheme := not_slashes_of_countMarkers between
      rw [countMarkers_append_separator apart] at between
      rw [countMarkers_append_marker, countMarkers_append_marker,
        countMarkers_append_separator apart] at two
      refine ⟨?_, ?_, ?_, ?_⟩
      · simp only [List.append_assoc, List.cons_append]
      · rw [List.append_assoc]
        exact fun opens => apart (slashes_isPrefix_append_colon.1 opens)
      · rw [countMarkers_append_marker]
        omega
      · rw [countMarkers_append_marker]
        omega

/-- The split that the number of markers asks for, if there is one. -/
def splitFor? (text : List Char) : Option (List Char × List Char) :=
  match countMarkers text with
  | 0 => splitPlain? text
  | 1 => splitOneMarker? text
  | 2 => splitTwoMarkers? text
  | _ => none

/-- A text is split as its number of markers asks for. -/
theorem toOption_splitByMarkers (text : List Char) :
    (splitByMarkers text).toOption = splitFor? text := by
  unfold splitByMarkers splitFor?
  dsimp only
  generalize countMarkers text = count
  match count with
  | 0 => cases splitPlain? text <;> rfl
  | 1 => cases splitOneMarker? text <;> rfl
  | 2 => cases splitTwoMarkers? text <;> rfl
  | _ + 3 => rfl

/-- A text is read as two sides where the split leaves none empty. -/
theorem toOption_splitSides (text : List Char) :
    (splitSides text).toOption =
      (splitFor? text).filter fun sides => !(sides.1.isEmpty || sides.2.isEmpty) := by
  rw [← toOption_splitByMarkers]
  unfold splitSides
  cases splitByMarkers text with
  | error fault => rfl
  | ok sides =>
    obtain ⟨left, right⟩ := sides
    cases left with
    | nil => rfl
    | cons c left => cases right <;> rfl

/-- Whatever the number of markers, a split is made at a colon that separates. -/
theorem separates_of_splitFor? {text left right : List Char}
    (h : splitFor? text = some (left, right)) : Separates text left right := by
  unfold splitFor? at h
  split at h
  · next none_ => exact separates_of_splitPlain? none_ h
  · next one => exact separates_of_splitOneMarker? one h
  · next two => exact separates_of_splitTwoMarkers? two h
  · exact absurd h.symm (Option.some_ne_none _)

/-- A text is read as two sides exactly where the split finds them and neither is empty. -/
theorem splitSides_eq_ok_iff {text left right : List Char} :
    splitSides text = .ok (left, right) ↔
      splitFor? text = some (left, right) ∧ left ≠ [] ∧ right ≠ [] := by
  have sides := toOption_splitSides text
  have ok_iff : splitSides text = .ok (left, right) ↔
      (splitSides text).toOption = some (left, right) := by
    cases splitSides text with
    | error fault => exact iff_of_false (fun h => nomatch h) (fun h => nomatch h)
    | ok found => rw [Except.toOption, Except.ok.injEq, Option.some_inj]
  rw [ok_iff, sides, Option.filter_eq_some_iff]
  simp only [Bool.not_or, Bool.and_eq_true, Bool.not_eq_true', List.isEmpty_eq_false_iff, ne_eq]

/-- Reading a text is reading its characters. -/
theorem splitCompound_eq_ok_iff {text left right : String} :
    splitCompound text = .ok (left, right) ↔
      splitSides text.toList = .ok (left.toList, right.toList) := by
  unfold splitCompound
  cases splitSides text.toList with
  | error fault => exact iff_of_false (fun h => nomatch h) (fun h => nomatch h)
  | ok sides =>
    obtain ⟨first, second⟩ := sides
    rw [Except.map, Except.ok.injEq, Except.ok.injEq, Prod.mk.injEq, Prod.mk.injEq]
    constructor
    · rintro ⟨rfl, rfl⟩
      exact ⟨String.toList_ofList.symm, String.toList_ofList.symm⟩
    · rintro ⟨rfl, rfl⟩
      exact ⟨String.ofList_toList, String.ofList_toList⟩

end CodeDelta.Locator
