import CodeDelta.Proofs.Locator.Parts
import Mathlib.Data.List.DropRight

/-!
# Joined sides

A side is bare, a path on a drive, or a body behind a scheme's marker (`IsSide`). Two sides joined
by a colon are split at that colon (`splitCompound_join`) unless it is taken for something else: for
a marker's, when slashes follow, or for a drive's, when a path separator follows and the left side's
last segment is a capital letter. Colons of its own keep a right side from the second danger, as a
letter then follows the colon; so does the rule that a lone colon always separates
(`splitCompound_bare_iff`).

The proof joins a body with a right side first (`splitPlain?_join`) and then puts schemes in front
of either side, one lemma for each way of counting the markers.
-/

namespace CodeDelta.Locator

/-- The characters that separate the segments of a path. -/
def isPathSeparator (c : Char) : Bool := c == '/' || c == '\\'

/-- A side without a colon. -/
def IsBare (side : List Char) : Prop := side ≠ [] ∧ ':' ∉ side

/-- A path on a drive: a capital letter, the drive's colon, a path separator, and then no colon. The
drive's colon opens no marker. -/
def IsDrivePath (side : List Char) : Prop :=
  ∃ letter separator rest, side = letter :: ':' :: separator :: rest ∧ letter.isUpper = true ∧
    isPathSeparator separator = true ∧ ':' ∉ rest ∧ ¬slashes <+: separator :: rest

/-- What follows the marker of a side: a text without a colon, which may be empty, or a path on a
drive. -/
def IsBody (body : List Char) : Prop := ':' ∉ body ∨ IsDrivePath body

/-- A side that names its scheme. -/
def IsQualified (side : List Char) : Prop :=
  ∃ scheme body, side = scheme ++ marker ++ body ∧ isSchemeName scheme = true ∧ IsBody body

/-- The part of a path after its last separator. -/
def lastSegment (path : List Char) : List Char := path.rtakeWhile fun c => !isPathSeparator c

/-- A side whose path is on a drive and ends in a segment that a colon would make a drive. -/
def EndsLikeDrive (side : List Char) : Prop :=
  ∃ path letter, IsDrivePath path ∧
    (side = path ∨ ∃ scheme, isSchemeName scheme = true ∧ side = scheme ++ marker ++ path) ∧
    lastSegment path = [letter] ∧ letter.isUpper = true

/-- The path separators, one by one. -/
theorem isPathSeparator_iff {c : Char} : isPathSeparator c = true ↔ c = '/' ∨ c = '\\' := by
  unfold isPathSeparator
  rw [Bool.or_eq_true, beq_iff_eq, beq_iff_eq]

/-- A capital letter is no path separator. -/
theorem isPathSeparator_of_isUpper {c : Char} (h : c.isUpper = true) :
    isPathSeparator c = false := by
  rw [Bool.eq_false_iff, ne_eq, isPathSeparator_iff]
  rintro (rfl | rfl) <;> exact absurd h (by decide)

/-- A drive's letter is no colon. -/
theorem colon_not_mem_drive {drive : Char} (capital : drive.isUpper = true) : ':' ∉ [drive] := by
  rw [List.mem_singleton]
  rintro rfl
  exact absurd capital (by decide)

/-- From the separator on, a path on a drive has no colon. -/
theorem colon_not_mem_path {separator : Char} {rest : List Char}
    (separates : isPathSeparator separator = true) (noColon : ':' ∉ rest) :
    ':' ∉ separator :: rest := by
  rw [List.mem_cons, not_or]
  refine ⟨?_, noColon⟩
  rintro rfl
  exact absurd separates (by decide)

/-- A scheme's name has no colon. -/
theorem colon_not_mem_of_isSchemeName {scheme : List Char} (h : isSchemeName scheme = true) :
    ':' ∉ scheme := by
  cases scheme with
  | nil => exact List.not_mem_nil
  | cons c rest =>
    obtain ⟨first, others⟩ := Bool.and_eq_true_iff.1 h
    rw [List.mem_cons, not_or]
    constructor
    · rintro rfl
      exact absurd first (by decide)
    · intro hm
      exact absurd (List.all_eq_true.1 others ':' hm) (by decide)

/-- A text that starts with another character than a path separator. -/
def StartsApart (text : List Char) : Prop :=
  ∃ c rest, text = c :: rest ∧ isPathSeparator c = false

/-- A scheme's name starts with a letter. -/
theorem startsApart_of_isSchemeName {scheme : List Char} (h : isSchemeName scheme = true) :
    StartsApart scheme := by
  cases scheme with
  | nil => exact absurd h Bool.false_ne_true
  | cons c rest =>
    obtain ⟨first, -⟩ := Bool.and_eq_true_iff.1 h
    refine ⟨c, rest, rfl, ?_⟩
    rw [Bool.eq_false_iff, ne_eq, isPathSeparator_iff]
    rintro (rfl | rfl) <;> exact absurd first (by decide)

/-- A side with a colon of its own starts with a letter. -/
theorem startsApart {side : List Char} (h : IsDrivePath side ∨ IsQualified side) :
    StartsApart side := by
  rcases h with ⟨letter, separator, rest, rfl, capital, -⟩ | ⟨scheme, body, rfl, name, -⟩
  · exact ⟨letter, _, rfl, isPathSeparator_of_isUpper capital⟩
  · obtain ⟨c, rest, rfl, other⟩ := startsApart_of_isSchemeName name
    exact ⟨c, rest ++ marker ++ body, rfl, other⟩

/-- No slashes stand where no path separator does. -/
theorem StartsApart.not_slashes {text : List Char} (h : StartsApart text) :
    ¬slashes <+: text := by
  obtain ⟨c, rest, rfl, other⟩ := h
  intro opens
  rw [← (List.cons_prefix_cons.1 opens).1] at other
  exact absurd other (by decide)

/-- A colon closes a drive only where a path separator follows it. -/
theorem exists_separator_of_closesDrive {before after : List Char}
    (h : closesDrive before after = true) :
    ∃ c rest, after = c :: rest ∧ isPathSeparator c = true := by
  have follows := (Bool.and_eq_true_iff.1 h).2
  cases after with
  | nil => exact absurd follows Bool.false_ne_true
  | cons c rest => exact ⟨c, rest, rfl, follows⟩

/-- Before another character than a path separator no drive ends. -/
theorem StartsApart.closesDrive {before after : List Char} (h : StartsApart after) :
    closesDrive before after = false := by
  obtain ⟨c, rest, rfl, other⟩ := h
  refine Bool.eq_false_iff.2 fun closes => ?_
  obtain ⟨d, rest', same, separates⟩ := exists_separator_of_closesDrive closes
  rw [← (List.cons.inj same).1, other] at separates
  exact Bool.false_ne_true separates

/-- A colon behind a drive's path closes a drive only where the path's last segment is a capital
letter and a path separator follows. -/
theorem lastSegment_of_closesDrive {path after : List Char} (h : IsDrivePath path)
    (closes : closesDrive path.reverse after = true) :
    ∃ letter, lastSegment path = [letter] ∧ letter.isUpper = true := by
  obtain ⟨drive, separator, rest, rfl, -, separates, noColon, -⟩ := h
  obtain ⟨opening, -⟩ := Bool.and_eq_true_iff.1 closes
  unfold lastSegment List.rtakeWhile
  -- The path from its end: what follows the separator last, and the drive at last.
  have backwards : (drive :: ':' :: separator :: rest).reverse =
      rest.reverse ++ [separator, ':', drive] := by
    simp only [List.reverse_cons, List.append_assoc, List.cons_append, List.nil_append]
  rw [backwards] at opening ⊢
  have other : ∀ c ∈ rest.reverse, c ≠ ':' := by
    rintro c hc rfl
    exact noColon (List.mem_reverse.1 hc)
  cases ends : rest.reverse with
  | nil =>
    -- The path ends in the separator behind the drive, which is no letter.
    rw [ends] at opening
    have upper := (Bool.and_eq_true_iff.1 opening).1
    rw [isPathSeparator_of_isUpper upper] at separates
    exact absurd separates Bool.false_ne_true
  | cons letter earlier =>
    -- Before the letter stands a separator: behind the drive, the only colon, there is one.
    rw [ends] at opening other
    obtain ⟨upper, opens⟩ := Bool.and_eq_true_iff.1 opening
    have next : ∃ c more, earlier ++ [separator, ':', drive] = c :: more ∧
        isPathSeparator c = true := by
      cases earlier with
      | nil => exact ⟨separator, _, rfl, separates⟩
      | cons c earlier =>
        refine ⟨c, _, rfl, ?_⟩
        have colon : (c == ':') = false :=
          beq_eq_false_iff_ne.2 (other c (List.mem_cons_of_mem letter List.mem_cons_self))
        have opens : (isPathSeparator c || c == ':') = true := opens
        rw [colon, Bool.or_false] at opens
        exact opens
    obtain ⟨c, more, next, stops⟩ := next
    have goes : (!isPathSeparator letter) = true := by
      rw [isPathSeparator_of_isUpper upper]
      rfl
    have halts : ¬(!isPathSeparator c) = true := by
      rw [stops]
      exact Bool.false_ne_true
    refine ⟨letter, ?_, upper⟩
    rw [List.cons_append, next, List.takeWhile_cons, if_pos goes, List.takeWhile_cons, if_neg halts]
    rfl

/-- A text without colons but for the one that separates is split there. -/
theorem splitPlain?_of_not_mem {left right : List Char} (hl : ':' ∉ left) (hr : ':' ∉ right) :
    splitPlain? (left ++ ':' :: right) = some (left, right) := by
  have lone : (left ++ ':' :: right).count ':' = 1 := by
    rw [List.count_append, List.count_cons_self, List.count_eq_zero_of_not_mem hl,
      List.count_eq_zero_of_not_mem hr]
  unfold splitPlain?
  rw [if_pos lone]
  exact Text.splitFirst?_append_cons hl right

/-- A text is split at its first colon when that closes no drive. -/
theorem splitPlain?_of_open {left right : List Char} (hl : ':' ∉ left)
    (hr : closesDrive left.reverse right = false) :
    splitPlain? (left ++ ':' :: right) = some (left, right) := by
  unfold splitPlain?
  split
  · exact Text.splitFirst?_append_cons hl right
  · rw [splitPlainFrom_append hl, List.append_nil, splitPlainFrom_colon hr, List.reverse_reverse]

/-- A path on a drive is split off at the colon behind it when that closes no drive. -/
theorem splitPlain?_of_isDrivePath {path right : List Char} (h : IsDrivePath path)
    (hr : closesDrive path.reverse right = false) :
    splitPlain? (path ++ ':' :: right) = some (path, right) := by
  obtain ⟨drive, separator, rest, rfl, capital, separates, noColon, -⟩ := h
  have closes : closesDrive [drive] (separator :: rest ++ ':' :: right) = true := by
    unfold closesDrive
    dsimp only
    rw [capital]
    exact separates
  have first : ':' ∉ [drive] := colon_not_mem_drive capital
  have middle : ':' ∉ separator :: rest := colon_not_mem_path separates noColon
  have several : ¬([drive] ++ ':' :: (separator :: rest ++ ':' :: right)).count ':' = 1 := by
    rw [List.count_append, List.count_cons_self, List.count_append, List.count_cons_self]
    omega
  have whole : drive :: ':' :: separator :: rest ++ ':' :: right =
      [drive] ++ ':' :: (separator :: rest ++ ':' :: right) := rfl
  have passed : (separator :: rest).reverse ++ [':', drive] =
      (drive :: ':' :: separator :: rest).reverse := by
    simp only [List.reverse_cons, List.append_assoc, List.cons_append, List.nil_append]
  unfold splitPlain?
  rw [whole, if_neg several, splitPlainFrom_append first, List.reverse_singleton, List.append_nil,
    splitPlainFrom_driveColon closes, splitPlainFrom_append middle, passed,
    splitPlainFrom_colon hr, List.reverse_reverse]

/-- A body is split off at the colon behind it when that closes no drive. Behind a body without
colons it may look like a drive's, as long as it is the only one. -/
theorem splitPlain?_join {body right : List Char} (hb : IsBody body)
    (hr : ':' ∉ right ∨ ∀ before, closesDrive before right = false)
    (open_ : IsDrivePath body → closesDrive body.reverse right = false) :
    splitPlain? (body ++ ':' :: right) = some (body, right) := by
  rcases hb with noColon | drive
  · rcases hr with none_ | never
    · exact splitPlain?_of_not_mem noColon none_
    · exact splitPlain?_of_open noColon (never _)
  · exact splitPlain?_of_isDrivePath drive (open_ drive)

/-- The body of a side has no marker. -/
theorem countMarkers_of_isBody {body : List Char} (h : IsBody body) : countMarkers body = 0 := by
  rcases h with noColon | ⟨drive, separator, rest, rfl, capital, separates, noColon, noSlashes⟩
  · exact countMarkers_of_not_mem noColon
  · have first : ':' ∉ [drive] := colon_not_mem_drive capital
    have middle : ':' ∉ separator :: rest := colon_not_mem_path separates noColon
    have whole : drive :: ':' :: separator :: rest = [drive] ++ ':' :: separator :: rest := rfl
    rw [whole, countMarkers_append_of_not_mem first, countMarkers_colon noSlashes,
      countMarkers_of_not_mem middle]

/-- A scheme's name has no marker. -/
theorem countMarkers_of_isSchemeName {scheme : List Char} (h : isSchemeName scheme = true) :
    countMarkers scheme = 0 :=
  countMarkers_of_not_mem (colon_not_mem_of_isSchemeName h)

section Schemes

variable {scheme scheme' body body' left right : List Char}

/-- A side that names its scheme has one marker. -/
theorem countMarkers_qualified (name : isSchemeName scheme = true) (plain : IsBody body) :
    countMarkers (scheme ++ marker ++ body) = 1 := by
  rw [countMarkers_append_marker, countMarkers_of_isSchemeName name, countMarkers_of_isBody plain]

/-- Two sides without schemes. -/
theorem splitFor?_of_isBody (hl : IsBody left) (hr : IsBody right) (apart : ¬slashes <+: right)
    (split : splitPlain? (left ++ ':' :: right) = some (left, right)) :
    splitFor? (left ++ ':' :: right) = some (left, right) := by
  have none_ : countMarkers (left ++ ':' :: right) = 0 := by
    rw [countMarkers_append_separator apart, countMarkers_of_isBody hl, countMarkers_of_isBody hr]
  unfold splitFor?
  rw [none_]
  exact split

/-- A left side that names its scheme. -/
theorem splitFor?_qualified_left (name : isSchemeName scheme = true) (plain : IsBody body)
    (hr : IsBody right) (apart : ¬slashes <+: right)
    (split : splitPlain? (body ++ ':' :: right) = some (body, right)) :
    splitFor? (scheme ++ marker ++ body ++ ':' :: right) =
      some (scheme ++ marker ++ body, right) := by
  have one : countMarkers (scheme ++ marker ++ body ++ ':' :: right) = 1 := by
    rw [countMarkers_append_separator apart, countMarkers_qualified name plain,
      countMarkers_of_isBody hr]
  have lead : Text.splitLast? ':' scheme = none :=
    Text.splitLast?_eq_none_iff.2 (colon_not_mem_of_isSchemeName name)
  unfold splitFor? splitOneMarker?
  rw [one, List.append_assoc, splitMarker?_append_marker (countMarkers_of_isSchemeName name)]
  dsimp only
  rw [lead, split]
  rfl

/-- A right side that names its scheme. -/
theorem splitFor?_qualified_right (hl : IsBody left) (name : isSchemeName scheme = true)
    (plain : IsBody body) (apart : ¬slashes <+: scheme) :
    splitFor? (left ++ ':' :: (scheme ++ marker ++ body)) =
      some (left, scheme ++ marker ++ body) := by
  have before : countMarkers (left ++ ':' :: scheme) = 0 := by
    rw [countMarkers_append_separator apart, countMarkers_of_isBody hl,
      countMarkers_of_isSchemeName name]
  have whole : left ++ ':' :: (scheme ++ marker ++ body) =
      left ++ ':' :: scheme ++ marker ++ body := by
    simp only [List.append_assoc, List.cons_append]
  have one : countMarkers (left ++ ':' :: scheme ++ marker ++ body) = 1 := by
    rw [countMarkers_append_marker, before, countMarkers_of_isBody plain]
  have last : Text.splitLast? ':' (left ++ ':' :: scheme) = some (left, scheme) :=
    Text.splitLast?_append_cons (colon_not_mem_of_isSchemeName name) left
  unfold splitFor? splitOneMarker?
  rw [whole, one, splitMarker?_append_marker before]
  dsimp only
  rw [last]
  rfl

/-- Two sides that name their schemes. -/
theorem splitFor?_qualified (name : isSchemeName scheme = true) (plain : IsBody body)
    (name' : isSchemeName scheme' = true) (plain' : IsBody body') (apart : ¬slashes <+: scheme') :
    splitFor? (scheme ++ marker ++ body ++ ':' :: (scheme' ++ marker ++ body')) =
      some (scheme ++ marker ++ body, scheme' ++ marker ++ body') := by
  have middle : countMarkers (body ++ ':' :: scheme') = 0 := by
    rw [countMarkers_append_separator apart, countMarkers_of_isBody plain,
      countMarkers_of_isSchemeName name']
  have whole : scheme ++ marker ++ body ++ ':' :: (scheme' ++ marker ++ body') =
      scheme ++ marker ++ (body ++ ':' :: scheme' ++ marker ++ body') := by
    simp only [List.append_assoc, List.cons_append]
  have two :
      countMarkers (scheme ++ marker ++ (body ++ ':' :: scheme' ++ marker ++ body')) = 2 := by
    rw [countMarkers_append_marker, countMarkers_append_marker, middle,
      countMarkers_of_isSchemeName name, countMarkers_of_isBody plain']
  have last : Text.splitLast? ':' (body ++ ':' :: scheme') = some (body, scheme') :=
    Text.splitLast?_append_cons (colon_not_mem_of_isSchemeName name') body
  unfold splitFor? splitTwoMarkers?
  rw [whole, two, splitMarker?_append_marker (countMarkers_of_isSchemeName name)]
  dsimp only
  rw [splitMarker?_append_marker middle]
  dsimp only
  rw [last]
  rfl

end Schemes

/-- What stands on one side of the separating colon. -/
def IsSide (side : List Char) : Prop := IsBare side ∨ IsDrivePath side ∨ IsQualified side

/-- A side is a body, or names its scheme. -/
theorem IsSide.isBody_or {side : List Char} (h : IsSide side) : IsBody side ∨ IsQualified side := by
  rcases h with ⟨-, noColon⟩ | drive | qualified
  · exact Or.inl (Or.inl noColon)
  · exact Or.inl (Or.inr drive)
  · exact Or.inr qualified

/-- No side is empty. -/
theorem IsSide.ne_nil {side : List Char} (h : IsSide side) : side ≠ [] := by
  rcases h with ⟨nonempty, -⟩ | own
  · exact nonempty
  · obtain ⟨c, rest, rfl, -⟩ := startsApart own
    exact List.cons_ne_nil c rest

/-- Two joined sides are split where they were joined. -/
theorem splitFor?_join {left right : List Char} (hl : IsSide left) (hr : IsSide right)
    (apart : IsBare right → ¬slashes <+: right)
    (open_ : ¬(EndsLikeDrive left ∧ IsBare right ∧
      ∃ c rest, right = c :: rest ∧ isPathSeparator c = true)) :
    splitFor? (left ++ ':' :: right) = some (left, right) := by
  -- The colon between them opens no marker,
  have apart : ¬slashes <+: right := by
    rcases hr with bare | own
    · exact apart bare
    · exact (startsApart own).not_slashes
  -- and closes no drive.
  have never : ':' ∉ right ∨ ∀ before, closesDrive before right = false := by
    rcases hr with ⟨-, noColon⟩ | own
    · exact Or.inl noColon
    · exact Or.inr fun before => (startsApart own).closesDrive
  have unclosed : ∀ path, IsDrivePath path →
      (left = path ∨ ∃ scheme, isSchemeName scheme = true ∧ left = scheme ++ marker ++ path) →
      closesDrive path.reverse right = false := by
    intro path drive place
    refine Bool.eq_false_iff.2 fun closes => ?_
    rcases hr with bare | own
    · obtain ⟨letter, last, upper⟩ := lastSegment_of_closesDrive drive closes
      exact open_ ⟨⟨path, letter, drive, place, last, upper⟩, bare,
        exists_separator_of_closesDrive closes⟩
    · exact absurd closes (Bool.eq_false_iff.1 (startsApart own).closesDrive)
  rcases hl.isBody_or with plain | ⟨scheme, body, rfl, name, plain⟩
  · rcases hr.isBody_or with plain' | ⟨scheme', body', rfl, name', plain'⟩
    · exact splitFor?_of_isBody plain plain' apart
        (splitPlain?_join plain never fun drive => unclosed left drive (Or.inl rfl))
    · exact splitFor?_qualified_right plain name' plain'
        (startsApart_of_isSchemeName name').not_slashes
  · rcases hr.isBody_or with plain' | ⟨scheme', body', rfl, name', plain'⟩
    · exact splitFor?_qualified_left name plain plain' apart
        (splitPlain?_join plain never fun drive =>
          unclosed body drive (Or.inr ⟨scheme, name, rfl⟩))
    · exact splitFor?_qualified name plain name' plain'
        (startsApart_of_isSchemeName name').not_slashes

/-- Joined sides are read back when they are split where they were joined. -/
theorem splitCompound_append_eq_ok_iff {left right : String} (hl : IsSide left.toList)
    (hr : IsSide right.toList) :
    splitCompound (left ++ ":" ++ right) = .ok (left, right) ↔
      splitFor? (left.toList ++ ':' :: right.toList) = some (left.toList, right.toList) := by
  have whole : (left ++ ":" ++ right).toList = left.toList ++ ':' :: right.toList := by
    rw [String.toList_append, String.toList_append, List.append_assoc]
    rfl
  rw [splitCompound_eq_ok_iff, whole, splitSides_eq_ok_iff]
  exact and_iff_left ⟨hl.ne_nil, hr.ne_nil⟩

/-- Two joined sides are read back, bare or with colons of their own. A bare right side must not
start with two slashes, which would make a marker of the separating colon; and where it starts with
a path separator, the left side must not end in a segment that the colon would make a drive. -/
theorem splitCompound_join {left right : String} (hl : IsSide left.toList)
    (hr : IsSide right.toList) (apart : IsBare right.toList → ¬slashes <+: right.toList)
    (open_ : ¬(EndsLikeDrive left.toList ∧ IsBare right.toList ∧
      ∃ c rest, right.toList = c :: rest ∧ isPathSeparator c = true)) :
    splitCompound (left ++ ":" ++ right) = .ok (left, right) := by
  rw [splitCompound_append_eq_ok_iff hl hr]
  exact splitFor?_join hl hr apart open_

/-- A path on a drive behind a scheme and a path on another drive, where a capital letter precedes
the separating colon. -/
theorem splitCompound_join_drives :
    IsSide "git://C:/src/A".toList ∧ IsSide "D:\\b".toList ∧
      splitCompound "git://C:/src/A:D:\\b" = .ok ("git://C:/src/A", "D:\\b") := by
  have left : IsSide "git://C:/src/A".toList :=
    Or.inr (Or.inr ⟨"git".toList, "C:/src/A".toList, rfl, rfl,
      Or.inr ⟨'C', '/', "src/A".toList, rfl, rfl, rfl, by decide, by decide⟩⟩)
  have right : IsSide "D:\\b".toList :=
    Or.inr (Or.inl ⟨'D', '\\', "b".toList, rfl, rfl, rfl, by decide, by decide⟩)
  have notBare : ¬IsBare "D:\\b".toList := fun bare => bare.2 (by decide)
  exact ⟨left, right, splitCompound_join left right (fun bare => absurd bare notBare)
    fun h => notBare h.2.1⟩

/-- Two joined bare sides are read back exactly when the right one does not start with two slashes:
those make a marker of the separating colon, and no other colon is left to separate. -/
theorem splitCompound_bare_iff {left right : String} (hl : IsBare left.toList)
    (hr : IsBare right.toList) :
    splitCompound (left ++ ":" ++ right) = .ok (left, right) ↔ ¬slashes <+: right.toList := by
  rw [splitCompound_append_eq_ok_iff (Or.inl hl) (Or.inl hr)]
  constructor
  · intro split
    exact (separates_of_splitFor? split).apart
  · intro apart
    have notDrive : ¬EndsLikeDrive left.toList := by
      rintro ⟨path, letter, ⟨drive, separator, rest, rfl, -⟩, place, -⟩
      refine hl.2 ?_
      rcases place with whole | ⟨scheme, -, whole⟩
      · rw [whole]
        exact List.mem_cons_of_mem drive List.mem_cons_self
      · rw [whole, List.append_assoc]
        exact List.mem_append_right scheme List.mem_cons_self
    exact splitFor?_join (Or.inl hl) (Or.inl hr) (fun _ => apart) fun h => notDrive h.1

/-- A lone colon separates even where it looks like a drive's. -/
theorem splitCompound_bare_lone_colon :
    IsBare "src/A".toList ∧ IsBare "/abs/b.py".toList ∧ ¬slashes <+: "/abs/b.py".toList ∧
      splitCompound "src/A:/abs/b.py" = .ok ("src/A", "/abs/b.py") := by
  have left : IsBare "src/A".toList := ⟨by decide, by decide⟩
  have right : IsBare "/abs/b.py".toList := ⟨by decide, by decide⟩
  have apart : ¬slashes <+: "/abs/b.py".toList := by decide
  exact ⟨left, right, apart, (splitCompound_bare_iff left right).2 apart⟩

/-- Not every two bare sides are read back. -/
theorem not_splitCompound_bare :
    ¬∀ left right : String, left ≠ "" → right ≠ "" → ':' ∉ left.toList → ':' ∉ right.toList →
      splitCompound (left ++ ":" ++ right) = .ok (left, right) := by
  intro joined
  have read := joined "a" "//b" (by decide) (by decide) (by decide) (by decide)
  exact absurd read (by decide)

end CodeDelta.Locator
