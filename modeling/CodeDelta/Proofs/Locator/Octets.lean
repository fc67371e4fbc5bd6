import CodeDelta.Failure
import CodeDelta.Proofs.Locator.Parts
import CodeDelta.Proofs.Text.Octets
import Mathlib.Logic.Basic

/-!
# Splitting octets

A text is kept as octets, and a search for a colon or a marker goes through the octets. All that a
split looks for is ASCII, so octets read one by one (`Text.asOctets`) are cut exactly where the text
is cut: at markers, at first and last colons, and by a plain split with its look at the neighbours
of each colon. No cut therefore falls inside a character (`splitSides_asOctets`).
`splitCompound_parts` adds what is left on the two sides.
-/

namespace CodeDelta.Locator

open Text

/-- The octets of a text have its markers. -/
theorem countMarkers_asOctets (text : List Char) :
    countMarkers (asOctets text) = countMarkers text := by
  fun_induction countMarkers text with
  | case1 rest ih =>
    have octets : asOctets (marker ++ rest) = marker ++ asOctets rest := asOctets_append marker rest
    have whole : countMarkers (marker ++ asOctets rest) = countMarkers (asOctets rest) + 1 := rfl
    rw [← ih, ← whole, ← octets]
    rfl
  | case2 c rest h ih =>
    rw [← ih]
    by_cases ascii : IsAscii c
    · rw [asOctets_cons_ascii ascii]
      -- Slashes are their own octets, so the octets make no marker that the text has not.
      refine countMarkers_cons fun colon opens => ?_
      have slash : IsAscii '/' := by decide
      have lead : ∀ c ∈ slashes, IsAscii c :=
        List.forall_mem_cons.2 ⟨slash, List.forall_mem_singleton.2 slash⟩
      obtain ⟨more, rfl⟩ := (isPrefix_asOctets_iff lead).1 opens
      exact h more colon rfl
    · have noColon : ':' ∉ asOctets [c] := fun hm =>
        not_isAscii_of_mem_asOctets ascii hm (by decide)
      rw [asOctets_cons, countMarkers_append_of_not_mem noColon]
  | case3 => rfl

/-- The octets of a text are cut at its first marker. -/
theorem splitMarker?_asOctets (text : List Char) :
    splitMarker? (asOctets text) = (splitMarker? text).map octetParts := by
  cases cut : splitMarker? text with
  | none =>
    rw [splitMarker?_eq_none_iff] at cut
    rw [Option.map_none, splitMarker?_eq_none_iff, countMarkers_asOctets, cut]
  | some parts =>
    obtain ⟨before, after⟩ := parts
    obtain ⟨rfl, clear⟩ := eq_of_splitMarker? cut
    have octets : asOctets marker = marker := rfl
    rw [asOctets_append, asOctets_append, octets,
      splitMarker?_append_marker ((countMarkers_asOctets before).trans clear)]
    rfl

/-- The octets of a text have its colons. -/
theorem count_colon_asOctets (text : List Char) :
    (asOctets text).count ':' = text.count ':' := by
  induction text with
  | nil => rfl
  | cons c rest ih =>
    have whole : c :: rest = [c] ++ rest := rfl
    rw [asOctets_cons, whole, List.count_append, List.count_append, ih]
    by_cases ascii : IsAscii c
    · rw [asOctets_ascii ascii]
    · have noColon : ':' ∉ asOctets [c] := fun hm =>
        not_isAscii_of_mem_asOctets ascii hm (by decide)
      have other : ':' ∉ [c] := by
        rw [List.mem_singleton]
        rintro rfl
        exact ascii (by decide)
      rw [List.count_eq_zero_of_not_mem noColon, List.count_eq_zero_of_not_mem other]

/-- The octets of what was passed, nearest first as the text itself. -/
def passedOctets (before : List Char) : List Char := (asOctets before.reverse).reverse

/-- The octets of the character passed last come first, in reverse. -/
theorem passedOctets_cons (c : Char) (earlier : List Char) :
    passedOctets (c :: earlier) = (asOctets [c]).reverse ++ passedOctets earlier := by
  unfold passedOctets
  rw [List.reverse_cons, asOctets_append, List.reverse_append]

/-- A test that only ASCII characters pass. -/
def IsAsciiTest (test : Char → Bool) : Prop := ∀ c, test c = true → IsAscii c

/-- A test of ASCII characters sees the octets of a character as it sees the character. -/
theorem test_octet {test : Char → Bool} (h : IsAsciiTest test) {c d : Char}
    (hd : d ∈ asOctets [c]) : test d = test c := by
  by_cases ascii : IsAscii c
  · rw [asOctets_ascii ascii, List.mem_singleton] at hd
    rw [hd]
  · have no : ∀ {e}, ¬IsAscii e → test e = false := fun he =>
      Bool.eq_false_iff.2 fun passes => he (h _ passes)
    rw [no (not_isAscii_of_mem_asOctets ascii hd), no ascii]

/-- The octets of what was passed end with one of its last character. -/
theorem exists_last_octet (c : Char) (earlier : List Char) :
    ∃ d ∈ asOctets [c], ∃ more, passedOctets (c :: earlier) = d :: more := by
  have nonempty : (asOctets [c]).reverse ≠ [] :=
    mt List.reverse_eq_nil_iff.1 (asOctets_singleton_ne_nil c)
  obtain ⟨d, more, octets⟩ := List.exists_cons_of_ne_nil nonempty
  refine ⟨d, ?_, more ++ passedOctets earlier, ?_⟩
  · rw [← List.mem_reverse, octets]
    exact List.mem_cons_self
  · rw [passedOctets_cons, octets, List.cons_append]

/-- Capital letters are ASCII. -/
theorem isAsciiTest_isUpper : IsAsciiTest Char.isUpper := by
  intro c h
  have bound : c.toNat ≤ 90 := (of_decide_eq_true h).2
  exact Nat.lt_of_le_of_lt bound (by decide)

/-- A colon between octets closes a drive where it does so in the text. -/
theorem closesDrive_asOctets (before after : List Char) :
    closesDrive (passedOctets before) (asOctets after) = closesDrive before after := by
  unfold closesDrive
  refine congrArg₂ Bool.and ?_ ?_
  -- What precedes the colon: a capital letter, and what that stands behind.
  · cases before with
    | nil => rfl
    | cons letter earlier =>
      by_cases ascii : IsAscii letter
      · rw [passedOctets_cons, asOctets_ascii ascii, List.reverse_singleton, List.singleton_append]
        refine congrArg (letter.isUpper && ·) ?_
        cases earlier with
        | nil => rfl
        | cons c earlier =>
          obtain ⟨d, hd, more, octets⟩ := exists_last_octet c earlier
          have test : IsAsciiTest fun c => c == '/' || c == '\\' || c == ':' := by
            intro c h
            simp only [Bool.or_eq_true, beq_iff_eq] at h
            rcases h with (rfl | rfl) | rfl <;> decide
          rw [octets]
          exact test_octet test hd
      · obtain ⟨d, hd, more, octets⟩ := exists_last_octet letter earlier
        have upper := test_octet isAsciiTest_isUpper hd
        have notUpper : letter.isUpper = false :=
          Bool.eq_false_iff.2 fun passes => ascii (isAsciiTest_isUpper letter passes)
        rw [octets]
        dsimp only
        rw [upper, notUpper]
        rfl
  -- What follows it: a path separator.
  · cases after with
    | nil => rfl
    | cons c after =>
      obtain ⟨d, hd, more, octets⟩ := exists_first_octet c after
      have test : IsAsciiTest fun c => c == '/' || c == '\\' := by
        intro c h
        simp only [Bool.or_eq_true, beq_iff_eq] at h
        rcases h with rfl | rfl <;> decide
      rw [octets]
      exact test_octet test hd

/-- A plain split goes through the octets of a text as it goes through the text. -/
theorem splitPlainFrom_asOctets (before text : List Char) :
    splitPlainFrom (passedOctets before) (asOctets text) =
      (splitPlainFrom before text).map octetParts := by
  induction text generalizing before with
  | nil => rfl
  | cons c after ih =>
    by_cases colon : c = ':'
    · -- A colon splits unless it closes a drive, which the octets around it tell as well.
      subst colon
      rw [asOctets_cons_ascii (by decide)]
      have closes := closesDrive_asOctets before after
      cases drive : closesDrive before after with
      | false =>
        rw [splitPlainFrom_colon drive, splitPlainFrom_colon (closes.trans drive)]
        unfold passedOctets
        rw [List.reverse_reverse]
        rfl
      | true =>
        have passed : ':' :: passedOctets before = passedOctets (':' :: before) :=
          (passedOctets_cons ':' before).symm
        rw [splitPlainFrom_driveColon drive, splitPlainFrom_driveColon (closes.trans drive),
          passed, ih]
    · -- No octet of another character is a colon: they are all passed at once.
      have other : ':' ∉ [c] := fun hm => colon (List.mem_singleton.1 hm).symm
      have octets : ':' ∉ asOctets [c] := mt (mem_asOctets_iff (by decide)).1 other
      have step : splitPlainFrom before ([c] ++ after) = splitPlainFrom (c :: before) after :=
        splitPlainFrom_append other before after
      rw [asOctets_cons, splitPlainFrom_append octets, ← passedOctets_cons, ih, ← step]
      rfl

/-- The octets of a text without markers are split where the text is. -/
theorem splitPlain?_asOctets (text : List Char) :
    splitPlain? (asOctets text) = (splitPlain? text).map octetParts := by
  unfold splitPlain?
  rw [count_colon_asOctets]
  by_cases lone : text.count ':' = 1
  · rw [if_pos lone, if_pos lone]
    exact splitFirst?_asOctets (by decide) text
  · rw [if_neg lone, if_neg lone]
    exact splitPlainFrom_asOctets [] text

/-- The octets around a marker. -/
theorem asOctets_append_marker (before after : List Char) :
    asOctets (before ++ marker ++ after) = asOctets before ++ marker ++ asOctets after := by
  rw [asOctets_append, asOctets_append]
  rfl

/-- The octets of a text with one marker are split where the text is. -/
theorem splitOneMarker?_asOctets (text : List Char) :
    splitOneMarker? (asOctets text) = (splitOneMarker? text).map octetParts := by
  have colon : IsAscii ':' := by decide
  unfold splitOneMarker?
  rw [splitMarker?_asOctets]
  cases splitMarker? text with
  | none => rfl
  | some parts =>
    obtain ⟨before, after⟩ := parts
    simp only [Option.map_some, octetParts]
    rw [splitLast?_asOctets colon]
    cases splitLast? ':' before with
    | some parts =>
      obtain ⟨left, scheme⟩ := parts
      simp only [Option.map_some, octetParts, asOctets_append_marker]
    | none =>
      simp only [Option.map_none]
      rw [splitPlain?_asOctets]
      cases splitPlain? after with
      | none => rfl
      | some parts => simp only [Option.map_some, octetParts, asOctets_append_marker]

/-- The octets of a text with two markers are split where the text is. -/
theorem splitTwoMarkers?_asOctets (text : List Char) :
    splitTwoMarkers? (asOctets text) = (splitTwoMarkers? text).map octetParts := by
  have colon : IsAscii ':' := by decide
  unfold splitTwoMarkers?
  rw [splitMarker?_asOctets]
  cases splitMarker? text with
  | none => rfl
  | some parts =>
    obtain ⟨before, after⟩ := parts
    simp only [Option.map_some, octetParts]
    rw [splitMarker?_asOctets]
    cases splitMarker? after with
    | none => rfl
    | some parts =>
      obtain ⟨middle, body⟩ := parts
      simp only [Option.map_some, octetParts]
      rw [splitLast?_asOctets colon]
      cases splitLast? ':' middle with
      | none => rfl
      | some parts => simp only [Option.map_some, octetParts, asOctets_append_marker]

/-- The octets of a text are split where the text is, whatever the number of markers. -/
theorem splitFor?_asOctets (text : List Char) :
    splitFor? (asOctets text) = (splitFor? text).map octetParts := by
  unfold splitFor?
  rw [countMarkers_asOctets]
  generalize countMarkers text = count
  match count with
  | 0 => exact splitPlain?_asOctets text
  | 1 => exact splitOneMarker?_asOctets text
  | 2 => exact splitTwoMarkers?_asOctets text
  | _ + 3 => rfl

/-- The octets of a text are read as the octets of its two sides. -/
theorem splitSides_asOctets (text : List Char) :
    (splitSides (asOctets text)).toOption = (splitSides text).toOption.map octetParts := by
  have empty_iff : ∀ part, (asOctets part).isEmpty = part.isEmpty := fun part => by
    rw [Bool.eq_iff_iff, List.isEmpty_iff, List.isEmpty_iff, asOctets_eq_nil_iff]
  rw [toOption_splitSides, toOption_splitSides, splitFor?_asOctets, Option.filter_map]
  refine congrArg (fun keep => ((splitFor? text).filter keep).map octetParts) ?_
  funext parts
  simp only [Function.comp_apply, octetParts, empty_iff]

/-- A compound locator is refused as such or read as two sides, neither empty, that a colon joins
to the whole; the colon is that of no marker and each side has at most one marker. Three markers or
more are refused. The octets of the text, taken without regard to characters, are cut at the same
places, so that no cut falls inside a character. -/
theorem splitCompound_parts (text : String) :
    ((∃ fault, splitCompound text = .error fault ∧ (Failure.ofFault fault).classOf = .format) ∨
      ∃ left right, splitCompound text = .ok (left, right) ∧ left ≠ "" ∧ right ≠ "" ∧
        text = left ++ ":" ++ right ∧ ¬marker <+: ':' :: right.toList ∧
        countMarkers left.toList ≤ 1 ∧ countMarkers right.toList ≤ 1) ∧
    (3 ≤ countMarkers text.toList →
      splitCompound text = .error (.manyMarkers text (countMarkers text.toList))) ∧
    (∀ part, part <:+ text.toList →
      splitMarker? (asOctets part) = (splitMarker? part).map octetParts) ∧
    (splitSides (asOctets text.toList)).toOption =
      (splitSides text.toList).toOption.map octetParts := by
  refine ⟨?_, fun many => ?_, fun part _ => splitMarker?_asOctets part,
    splitSides_asOctets text.toList⟩
  · cases read : splitCompound text with
    | error fault => exact Or.inl ⟨fault, rfl, rfl⟩
    | ok sides =>
      obtain ⟨left, right⟩ := sides
      obtain ⟨split, leftFilled, rightFilled⟩ :=
        splitSides_eq_ok_iff.1 (splitCompound_eq_ok_iff.1 read)
      obtain ⟨whole, apart, left_le, right_le⟩ := separates_of_splitFor? split
      refine Or.inr ⟨left, right, rfl, ?_, ?_, ?_, ?_, left_le, right_le⟩
      · rintro rfl
        exact leftFilled rfl
      · rintro rfl
        exact rightFilled rfl
      · refine String.toList_injective ?_
        rw [String.toList_append, String.toList_append, whole, List.append_assoc]
        rfl
      · intro opens
        exact apart (List.cons_prefix_cons.1 opens).2
  · have refused : splitByMarkers text.toList =
        .error (.manyMarkers text (countMarkers text.toList)) := by
      unfold splitByMarkers
      rw [String.ofList_toList]
      generalize countMarkers text.toList = count at many
      match count with
      | _ + 3 => rfl
    unfold splitCompound splitSides
    rw [refused]
    rfl

end CodeDelta.Locator
