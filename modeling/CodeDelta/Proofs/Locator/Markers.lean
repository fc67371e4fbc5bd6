import CodeDelta.Locator.Compound

/-!
# Markers around a colon

A marker is a colon with two slashes behind it, so that whether a colon opens one is decided by what
follows (`slashes`), and no marker reaches across a colon that opens none. The markers of a text
therefore add up over the parts before and after any colon (`countMarkers_append_colon`), and a
text is cut at its first marker exactly where the part before has none (`eq_of_splitMarker?`,
`splitMarker?_append_marker`).
-/

namespace CodeDelta.Locator

/-- The slashes that make a marker of the colon before them. -/
def slashes : List Char := ['/', '/']

/-- A colon behind a text does not complete its slashes. -/
theorem slashes_isPrefix_append_colon {before after : List Char} :
    slashes <+: before ++ ':' :: after ↔ slashes <+: before := by
  constructor
  · intro h
    have short : (before ++ ':' :: after).take 2 = slashes := (List.prefix_iff_eq_take.1 h).symm
    cases before with
    | nil => exact absurd (List.cons.inj short).1 (by decide)
    | cons c before =>
      cases before with
      | nil => exact absurd (List.cons.inj (List.cons.inj short).2).1 (by decide)
      | cons d before =>
        rw [← short]
        exact ⟨before, rfl⟩
  · intro h
    exact h.trans (List.prefix_append before _)

/-- A character that opens no marker adds none. -/
theorem countMarkers_cons {c : Char} {after : List Char} (h : c = ':' → ¬slashes <+: after) :
    countMarkers (c :: after) = countMarkers after := by
  rw [countMarkers]
  rintro rest colon rfl
  exact h colon (List.prefix_append slashes rest)

/-- A colon that opens no marker adds none. -/
theorem countMarkers_colon {after : List Char} (h : ¬slashes <+: after) :
    countMarkers (':' :: after) = countMarkers after :=
  countMarkers_cons fun _ => h

/-- A colon that opens a marker adds one. -/
theorem countMarkers_colon_pos {after : List Char} (h : slashes <+: after) :
    0 < countMarkers (':' :: after) := by
  obtain ⟨rest, rfl⟩ := h
  exact Nat.succ_pos (countMarkers rest)

/-- Other characters open no marker. -/
theorem countMarkers_cons_of_ne {c : Char} (h : c ≠ ':') (after : List Char) :
    countMarkers (c :: after) = countMarkers after :=
  countMarkers_cons fun colon => absurd colon h

/-- A part without colons adds no marker to what follows it. -/
theorem countMarkers_append_of_not_mem {part : List Char} (h : ':' ∉ part) (after : List Char) :
    countMarkers (part ++ after) = countMarkers after := by
  induction part with
  | nil => rfl
  | cons c part ih =>
    rw [List.mem_cons, not_or] at h
    rw [List.cons_append, countMarkers_cons_of_ne (Ne.symm h.1), ih h.2]

/-- Without a colon there is no marker. -/
theorem countMarkers_of_not_mem {text : List Char} (h : ':' ∉ text) : countMarkers text = 0 := by
  rw [← List.append_nil text, countMarkers_append_of_not_mem h]
  rfl

/-- The markers of a text are those before a colon and those from the colon on. -/
theorem countMarkers_append_colon (before after : List Char) :
    countMarkers (before ++ ':' :: after) = countMarkers before + countMarkers (':' :: after) := by
  fun_induction countMarkers before with
  | case1 rest ih =>
    have whole : countMarkers (':' :: '/' :: '/' :: (rest ++ ':' :: after)) =
        countMarkers (rest ++ ':' :: after) + 1 := rfl
    rw [List.cons_append, List.cons_append, List.cons_append, whole, ih, Nat.add_right_comm]
  | case2 c rest h ih =>
    rw [List.cons_append, ← ih]
    refine countMarkers_cons fun colon opens => ?_
    obtain ⟨more, rfl⟩ := slashes_isPrefix_append_colon.1 opens
    exact h more colon rfl
  | case3 => rw [List.nil_append, Nat.zero_add]

/-- The markers of a text around one of them. -/
theorem countMarkers_append_marker (before after : List Char) :
    countMarkers (before ++ marker ++ after) = countMarkers before + 1 + countMarkers after := by
  have whole : countMarkers (marker ++ after) = countMarkers after + 1 := rfl
  have apart := countMarkers_append_colon before (slashes ++ after)
  rw [List.append_assoc, Nat.add_assoc, Nat.add_comm 1, ← whole]
  exact apart

/-- The colon of a text without markers is followed by no slashes. -/
theorem not_slashes_of_countMarkers {before after : List Char}
    (h : countMarkers (before ++ ':' :: after) = 0) : ¬slashes <+: after := by
  intro opens
  have some_ := countMarkers_colon_pos opens
  rw [countMarkers_append_colon] at h
  omega

/-- The parts around the first marker make up the text, and no marker stands in the first one. -/
theorem eq_of_splitMarker? {text before after : List Char}
    (h : splitMarker? text = some (before, after)) :
    text = before ++ marker ++ after ∧ countMarkers before = 0 := by
  fun_induction splitMarker? text generalizing before with
  | case1 rest =>
    obtain ⟨rfl, rfl⟩ := Prod.mk.inj (Option.some_inj.1 h)
    exact ⟨rfl, rfl⟩
  | case2 c rest notMarker ih =>
    obtain ⟨⟨first, last⟩, found, parts⟩ := Option.map_eq_some_iff.1 h
    obtain ⟨rfl, rfl⟩ := Prod.mk.inj parts
    obtain ⟨rfl, none⟩ := ih found
    refine ⟨rfl, ?_⟩
    rw [← none]
    refine countMarkers_cons fun colon opens => ?_
    obtain ⟨more, rfl⟩ := opens
    exact notMarker _ colon rfl
  | case3 => exact absurd h.symm (Option.some_ne_none _)

/-- A text is cut at the marker that no marker precedes. -/
theorem splitMarker?_append_marker {before : List Char} (h : countMarkers before = 0)
    (after : List Char) : splitMarker? (before ++ marker ++ after) = some (before, after) := by
  fun_induction countMarkers before with
  | case1 rest ih => exact absurd h (Nat.succ_ne_zero _)
  | case2 c rest notMarker ih =>
    rw [List.cons_append, List.cons_append, splitMarker?, ih h]
    · rfl
    · rintro more rfl whole
      have opens : slashes <+: rest := by
        refine (@slashes_isPrefix_append_colon rest (slashes ++ after)).1 ⟨more, ?_⟩
        rw [List.append_assoc] at whole
        exact whole.symm
      obtain ⟨later, rfl⟩ := opens
      exact notMarker later rfl rfl
  | case3 => rfl

/-- Only a text without markers is not cut. -/
theorem splitMarker?_eq_none_iff {text : List Char} :
    splitMarker? text = none ↔ countMarkers text = 0 := by
  fun_induction countMarkers text with
  | case1 rest ih => exact iff_of_false (Option.some_ne_none _) (Nat.succ_ne_zero _)
  | case2 c rest notMarker ih =>
    rw [splitMarker?, Option.map_eq_none_iff, ih]
    exact notMarker
  | case3 => exact iff_of_true rfl rfl

end CodeDelta.Locator
