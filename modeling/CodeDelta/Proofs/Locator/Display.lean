import CodeDelta.Proofs.Locator.Join
import CodeDelta.Proofs.Locator.Suffix
import CodeDelta.Proofs.Text.Case

/-!
# Locators that are shown

A locator is shown as `scheme://resource`, and a file locator as its path alone. A text that names a
scheme is read as that scheme (`parse_qualified`), every other one as a path (`parse_eq_bare_iff`),
so what is shown is read as what it was shown for, with one exception: a path that names a scheme
itself, which only a text that says `file://` in front of it leads to (`parse_display_iff`).
-/

namespace CodeDelta.Locator

open Text

/-- Whether a text names a scheme in front of a resource. -/
def NamesScheme (text : String) : Prop :=
  ∃ scheme resource, isSchemeName scheme.toList = true ∧ text = scheme ++ "://" ++ resource

/-- The case of its letters does not matter to whether a text is a scheme's name. -/
theorem isSchemeName_lower (scheme : List Char) :
    isSchemeName (scheme.map Char.toLower) = isSchemeName scheme := by
  -- Capitals become letters, which may stand everywhere; nothing else changes.
  have later : ∀ c : Char,
      (c.toLower.isAlphanum || c.toLower == '+' || c.toLower == '-' || c.toLower == '.' ||
          c.toLower == '_') =
        (c.isAlphanum || c == '+' || c == '-' || c == '.' || c == '_') := by
    intro c
    by_cases capital : c.isUpper = true
    · have letter : c.isAlpha = true := Bool.or_eq_true_iff.2 (Or.inl capital)
      have small : c.toLower.isAlpha = true := by rw [Text.isAlpha_toLower, letter]
      simp only [Char.isAlphanum, letter, small, Bool.true_or]
    · rw [Text.toLower_of_not_isUpper capital]
  cases scheme with
  | nil => rfl
  | cons c rest =>
    rw [List.map_cons, isSchemeName, isSchemeName, Text.isAlpha_toLower, List.all_map]
    simp only [Function.comp_def, later]

/-- A text that names a scheme is read as the scheme in small letters and what follows the
marker. -/
theorem parse_qualified {scheme : String} (named : isSchemeName scheme.toList = true)
    (resource : String) :
    Locator.parse (scheme ++ "://" ++ resource) = ⟨lowerAscii scheme, resource⟩ := by
  have none_ : countMarkers scheme.toList = 0 :=
    countMarkers_of_not_mem (colon_not_mem_of_isSchemeName named)
  have text : (scheme ++ "://" ++ resource).toList =
      scheme.toList ++ marker ++ resource.toList := by
    rw [String.toList_append, String.toList_append]
    rfl
  unfold Locator.parse
  rw [text, splitMarker?_append_marker none_]
  dsimp only
  rw [if_pos named, String.ofList_toList]
  rfl

/-- The text behind a scheme is shorter than the whole. -/
theorem resource_ne (scheme resource : String) : scheme ++ "://" ++ resource ≠ resource := by
  intro same
  have lengths := congrArg (fun text : String => text.toList.length) same
  have mark : "://".toList.length = 3 := rfl
  simp only [String.toList_append, List.length_append, mark] at lengths
  omega

/-- A text is a path as it stands exactly when it names no scheme. -/
theorem parse_eq_bare_iff (text : String) :
    Locator.parse text = ⟨fileScheme, text⟩ ↔ ¬NamesScheme text := by
  constructor
  · rintro bare ⟨scheme, resource, named, rfl⟩
    rw [parse_qualified named, Locator.mk.injEq] at bare
    exact resource_ne scheme resource bare.2.symm
  · intro unnamed
    have read := spells_parse text
    generalize Locator.parse text = locator at read
    cases read with
    | bare => rfl
    | qualified scheme named resource => exact absurd ⟨scheme, resource, named, rfl⟩ unnamed

/-- A locator that is read from a text has its scheme in small letters. -/
theorem lowerAscii_scheme_parse (text : String) :
    lowerAscii (Locator.parse text).scheme = (Locator.parse text).scheme := by
  have read := spells_parse text
  generalize Locator.parse text = locator at read
  cases read with
  | bare => exact (by decide : lowerAscii fileScheme = fileScheme)
  | qualified scheme named resource => exact lowerAscii_idem scheme

/-- `file` is a scheme's name in letters of any case. -/
theorem isSchemeName_of_file {file : String} (h : lowerAscii file = fileScheme) :
    isSchemeName file.toList = true := by
  rw [← isSchemeName_lower, ← toList_lowerAscii, h]
  rfl

/-- What follows `file://` is the path. -/
theorem parse_file {file : String} (h : lowerAscii file = fileScheme) (path : String) :
    Locator.parse (file ++ "://" ++ path) = ⟨fileScheme, path⟩ := by
  rw [parse_qualified (isSchemeName_of_file h), h]

/-- A locator of another scheme than `file` is read from the text that is shown for it, when its
scheme is one in small letters. -/
theorem parse_display {scheme : String} (named : isSchemeName scheme.toList = true)
    (small : lowerAscii scheme = scheme) (other : scheme ≠ fileScheme) (resource : String) :
    Locator.parse (Locator.mk scheme resource).display = ⟨scheme, resource⟩ := by
  have shown : (Locator.mk scheme resource).display = scheme ++ "://" ++ resource :=
    if_neg fun same => other (eq_of_beq same)
  rw [shown, parse_qualified named, small]

/-- What is shown for the locator that a text is read as is read as the same locator, except exactly
when the text is `file://`, in letters of any case, in front of a text that names a scheme
itself. -/
theorem parse_display_iff (text : String) :
    Locator.parse (Locator.parse text).display = Locator.parse text ↔
      ¬∃ file inner, lowerAscii file = "file" ∧ text = file ++ "://" ++ inner ∧
        NamesScheme inner := by
  by_cases path : ∃ file inner, lowerAscii file = "file" ∧ text = file ++ "://" ++ inner
  · obtain ⟨file, inner, spelled, rfl⟩ := path
    have read : Locator.parse (file ++ "://" ++ inner) = ⟨fileScheme, inner⟩ :=
      parse_file spelled inner
    have shown : (Locator.mk fileScheme inner).display = inner := rfl
    rw [read, shown, parse_eq_bare_iff, not_iff_not]
    constructor
    · exact fun named => ⟨file, inner, spelled, rfl, named⟩
    · rintro ⟨file', inner', spelled', whole, named⟩
      -- There is only one path that the text can be read as.
      have again := (congrArg Locator.parse whole).symm.trans read
      rw [parse_file spelled', Locator.mk.injEq] at again
      rw [← again.2]
      exact named
  · have never : ¬∃ file inner, lowerAscii file = "file" ∧ text = file ++ "://" ++ inner ∧
        NamesScheme inner :=
      fun ⟨file, inner, spelled, whole, _⟩ => path ⟨file, inner, spelled, whole⟩
    refine iff_of_true ?_ never
    have read := spells_parse text
    generalize same : Locator.parse text = locator at read
    cases read with
    | bare => exact same
    | qualified scheme named resource =>
      have small : isSchemeName (lowerAscii scheme).toList = true := by
        rw [toList_lowerAscii, isSchemeName_lower, named]
      exact parse_display small (lowerAscii_idem scheme)
        (fun file => path ⟨scheme, resource, file, rfl⟩) resource

/-- A path behind `file://` may look like a locator, and is shown like one. -/
example : (Locator.parse "FILE://git://a.py@HEAD").display = "git://a.py@HEAD" := rfl

end CodeDelta.Locator
