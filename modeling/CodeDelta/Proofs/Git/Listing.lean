import CodeDelta.Git.Listing
import CodeDelta.Git.Repository
import CodeDelta.Proofs.Text.Utf8
import CodeDelta.Proofs.Text.Words

/-!
# Listings read back

A listing ends each line with a zero byte. What is read of it are the pieces of the lines between
zero characters, without the empty ones (`listingLines_listing`), so names are read back exactly
when none is empty and none holds a zero (`parseNames_listing_iff`).

The line of an entry is its mode, its kind and the name of its object, with a space between them, a
tab and the path. Whatever the path holds, the tab in front of it is the first one, and the line is
read back as the entry (`parse?_line`). A zero in the name of the object cuts the line before its
tab, and then no piece is an entry (`filterMap_parse?_pieces`).
-/

namespace CodeDelta.Git

variable {lines : List (List Char)} {line piece : List Char} {paths : List String}
  {entry : TreeEntry}

/-! ## Lines between zero bytes -/

/-- Cutting at zero bytes is cutting a list at an element. -/
theorem splitZero_eq_splitOn (bytes : List UInt8) : splitZero bytes = bytes.splitOn 0 := by
  induction bytes with
  | nil => rfl
  | cons byte rest ih =>
    rw [List.splitOn_cons_eq_if_modifyHead, splitZero, ih]
    cases pieces : rest.splitOn 0 with
    | nil => exact absurd pieces (List.splitOn_ne_nil 0 rest)
    | cons piece pieces => simp only [beq_iff_eq, List.modifyHead_cons]

/-- The bytes of a text are cut where its characters are. -/
theorem splitZero_encodeUtf8 (text : List Char) :
    splitZero (Text.encodeUtf8 text) = (text.splitOn (Char.ofNat 0)).map Text.encodeUtf8 := by
  rw [splitZero_eq_splitOn]
  -- Up to the first zero character no byte is zero, and what follows it is a shorter text.
  by_cases inside : Char.ofNat 0 ∈ text
  · obtain ⟨before, after, cut, absent⟩ := List.eq_append_cons_of_mem inside
    have shorter : after.length < text.length := by
      rw [cut, List.length_append, List.length_cons]
      omega
    have bytes : Text.encodeUtf8 text = Text.encodeUtf8 before ++ 0 :: Text.encodeUtf8 after := by
      rw [cut]
      exact List.flatMap_append
    have later := splitZero_encodeUtf8 after
    rw [splitZero_eq_splitOn] at later
    rw [bytes, cut, List.splitOn_append_cons_self_of_not_mem absent,
      List.splitOn_append_cons_self_of_not_mem (Text.zero_not_mem_encodeUtf8 absent), later,
      List.map_cons]
  · rw [List.splitOn_eq_singleton inside,
      List.splitOn_eq_singleton (Text.zero_not_mem_encodeUtf8 inside), List.map_singleton]
termination_by text.length

/-- The pieces of a line between zero characters, without the empty ones. -/
def pieces (line : List Char) : List (List Char) := (line.splitOn (Char.ofNat 0)).filter (· ≠ [])

/-- A line without a zero is its own piece. -/
theorem pieces_eq_singleton (some : line ≠ []) (h : Char.ofNat 0 ∉ line) :
    pieces line = [line] := by
  unfold pieces
  rw [List.splitOn_eq_singleton h]
  exact List.filter_eq_self.2 fun piece inside => by
    rw [List.mem_singleton.1 inside]
    exact decide_eq_true some

/-- A zero character ends a piece. -/
theorem pieces_append_cons (before after : List Char) :
    pieces (before ++ Char.ofNat 0 :: after) = pieces before ++ pieces after := by
  unfold pieces
  rw [List.splitOn_append_cons_self, List.filter_append]

/-- A piece has characters of the line, and is neither empty nor holds a zero. -/
theorem of_mem_pieces (h : piece ∈ pieces line) :
    piece ⊆ line ∧ piece ≠ [] ∧ Char.ofNat 0 ∉ piece := by
  obtain ⟨inside, some⟩ := List.mem_filter.1 h
  rw [List.splitOn_eq_splitOnP] at inside
  obtain ⟨within, apart⟩ := Text.of_mem_splitOnP inside
  exact ⟨within, of_decide_eq_true some, fun zero => absurd (apart _ zero) (by decide)⟩

/-- What is read of a text. -/
theorem listingLines_encodeUtf8 (text : List Char) :
    listingLines (Text.encodeUtf8 text) = pieces text := by
  have filled : (fun piece => !piece.isEmpty) ∘ Text.encodeUtf8 =
      fun piece => decide (piece ≠ []) := by
    funext piece
    rw [Bool.eq_iff_iff]
    simp [Text.encodeUtf8_eq_nil_iff]
  have decoded : (fun piece => (Text.decodeUtf8 piece).toOption) ∘ Text.encodeUtf8 = some :=
    funext fun piece => by rw [Function.comp_apply, Text.decodeUtf8_encodeUtf8]; rfl
  unfold listingLines pieces
  rw [splitZero_encodeUtf8, List.filter_map, filled, List.filterMap_map, decoded,
    List.filterMap_some]

/-- A zero byte ends what is read before it. -/
theorem listingLines_append_cons (before after : List UInt8) :
    listingLines (before ++ 0 :: after) = listingLines before ++ listingLines after := by
  unfold listingLines
  rw [splitZero_eq_splitOn, splitZero_eq_splitOn, splitZero_eq_splitOn,
    List.splitOn_append_cons_self, List.filter_append, List.filterMap_append]

/-- The pieces of its lines are read of a listing. -/
theorem listingLines_listing (lines : List (List Char)) :
    listingLines (listing lines) = lines.flatMap pieces := by
  induction lines with
  | nil => rfl
  | cons line rest ih =>
    have bytes : listing (line :: rest) = Text.encodeUtf8 line ++ 0 :: listing rest := by
      unfold listing
      rw [List.flatMap_cons, List.append_assoc, List.singleton_append]
    rw [bytes, listingLines_append_cons, listingLines_encodeUtf8, ih, List.flatMap_cons]

/-- Lines without a zero are read as they are. -/
theorem flatMap_pieces (h : ∀ line ∈ lines, line ≠ [] ∧ Char.ofNat 0 ∉ line) :
    lines.flatMap pieces = lines := by
  have alone : ∀ line ∈ lines, pieces line = [line] := fun line inside =>
    pieces_eq_singleton (h line inside).1 (h line inside).2
  rw [List.flatMap_congr alone, List.flatMap_singleton']

/-- Names are read back exactly when none of them is empty or holds a zero. -/
theorem parseNames_listing_iff :
    parseNames (listing (paths.map String.toList)) = paths ↔
      ∀ path ∈ paths, path ≠ "" ∧ Char.ofNat 0 ∉ path.toList := by
  unfold parseNames
  rw [listingLines_listing]
  constructor
  · intro same path inside
    rw [← same] at inside
    obtain ⟨piece, read, rfl⟩ := List.mem_map.1 inside
    obtain ⟨line, -, cut⟩ := List.mem_flatMap.1 read
    obtain ⟨-, some, free⟩ := of_mem_pieces cut
    rw [String.toList_ofList]
    exact ⟨fun empty => some (String.ofList_eq_empty_iff.1 empty), free⟩
  · intro h
    have back : String.ofList ∘ String.toList = id := funext fun _ => String.ofList_toList
    have filled : ∀ line ∈ paths.map String.toList, line ≠ [] ∧ Char.ofNat 0 ∉ line := by
      intro line hl
      obtain ⟨path, hp, rfl⟩ := List.mem_map.1 hl
      exact ⟨fun empty => (h path hp).1 (String.toList_inj.1 empty), (h path hp).2⟩
    rw [flatMap_pieces filled, List.map_map, back, List.map_id]

/-! ## Lines of entries -/

/-- A line without a tab is no entry. -/
theorem parse?_eq_none (h : '\t' ∉ line) : TreeEntry.parse? line = none := by
  unfold TreeEntry.parse?
  rw [Text.splitFirst?_eq_none_iff.2 h]
  rfl

/-- The first tab of a line ends the words in front of the path. -/
theorem parse?_append_cons {before : List Char} (h : '\t' ∉ before) (path : List Char) :
    TreeEntry.parse? (before ++ '\t' :: path) =
      match Text.words before with
      | mode :: kind :: _ => some ⟨String.ofList mode, String.ofList kind, String.ofList path⟩
      | _ => none := by
  unfold TreeEntry.parse?
  rw [Text.splitFirst?_append_cons h]
  rfl

/-- No part of an entry holds a zero. -/
structure TreeEntry.IsFree (entry : TreeEntry) : Prop where
  /-- The mode holds none. -/
  mode : Char.ofNat 0 ∉ entry.mode.toList
  /-- The kind holds none. -/
  kind : Char.ofNat 0 ∉ entry.kind.toList
  /-- The path holds none. -/
  path : Char.ofNat 0 ∉ entry.path.toList

/-- An entry is made of characters of its line. -/
theorem subset_of_parse? (h : TreeEntry.parse? line = some entry) :
    entry.mode.toList ⊆ line ∧ entry.kind.toList ⊆ line ∧ entry.path.toList ⊆ line := by
  by_cases tab : '\t' ∈ line
  · obtain ⟨before, path, rfl, free⟩ := List.eq_append_cons_of_mem tab
    have front : ∀ word ∈ Text.words before, word ⊆ before ++ '\t' :: path := fun word inside =>
      List.subset_append_of_subset_left _ (Text.of_mem_words inside).2
    rw [parse?_append_cons free] at h
    split at h
    · next mode kind more words =>
      obtain rfl := Option.some_inj.1 h
      rw [words] at front
      simp only [String.toList_ofList]
      exact ⟨front mode List.mem_cons_self,
        front kind (List.mem_cons_of_mem mode List.mem_cons_self),
        List.subset_append_of_subset_right _ (List.subset_cons_self _ _)⟩
    · exact absurd h.symm (Option.some_ne_none entry)
  · rw [parse?_eq_none tab] at h
    exact absurd h.symm (Option.some_ne_none entry)

/-- A zero in the last word in front of the tab leaves no entry: the pieces before the zero have no
tab, and the one behind it has at most one word in front of its tab. -/
theorem filterMap_parse?_cut {before after path : List Char}
    (noTab : '\t' ∉ before ++ Char.ofNat 0 :: after) (dense : ∀ c ∈ after, Text.isBlank c = false)
    (free : Char.ofNat 0 ∉ after ++ '\t' :: path) :
    (pieces (before ++ Char.ofNat 0 :: (after ++ '\t' :: path))).filterMap TreeEntry.parse? =
      [] := by
  have lost : (pieces before).filterMap TreeEntry.parse? = [] :=
    List.filterMap_eq_nil_iff.2 fun piece inside => parse?_eq_none fun tab =>
      noTab (List.mem_append_left _ ((of_mem_pieces inside).1 tab))
  have alone : TreeEntry.parse? (after ++ '\t' :: path) = none := by
    have behind : '\t' ∉ after := fun tab =>
      noTab (List.mem_append_right _ (List.mem_cons_of_mem _ tab))
    rw [parse?_append_cons behind]
    by_cases nothing : after = []
    · rw [nothing]
      rfl
    · rw [Text.words_of_isWord ⟨nothing, dense⟩]
  have filled : after ++ '\t' :: path ≠ [] := List.append_ne_nil_of_right_ne_nil _ nofun
  rw [pieces_append_cons, List.filterMap_append, lost, pieces_eq_singleton filled free,
    List.filterMap_cons_none alone]
  rfl

/-- An entry as a listing has it, with the name of its object. -/
structure ListedEntry extends TreeEntry where
  /-- The name of the object. -/
  object : String

namespace ListedEntry

/-- What stands in front of the tab: the mode, the kind and the name of the object. -/
def front (listed : ListedEntry) : List Char :=
  listed.mode.toList ++ ' ' :: (listed.kind.toList ++ ' ' :: listed.object.toList)

/-- The line of an entry without its zero byte. -/
def toLine (listed : ListedEntry) : List Char := listed.front ++ '\t' :: listed.path.toList

/-- What stands in front of the tab can be read as words. -/
structure IsWorded (listed : ListedEntry) : Prop where
  /-- The mode is a word. -/
  mode : Text.IsWord listed.mode.toList
  /-- The kind is a word. -/
  kind : Text.IsWord listed.kind.toList
  /-- The name of the object is a word. -/
  object : Text.IsWord listed.object.toList

instance (listed : ListedEntry) : Decidable listed.IsWorded :=
  decidable_of_iff (Text.IsWord listed.mode.toList ∧ Text.IsWord listed.kind.toList ∧
      Text.IsWord listed.object.toList)
    ⟨fun h => ⟨h.1, h.2.1, h.2.2⟩, fun h => ⟨h.mode, h.kind, h.object⟩⟩

variable {listed : ListedEntry}

/-- The words in front of the tab. -/
theorem IsWorded.words_front (h : listed.IsWorded) :
    Text.words listed.front = [listed.mode.toList, listed.kind.toList, listed.object.toList] := by
  unfold front
  rw [Text.words_append_blank rfl, Text.words_append_blank rfl, Text.words_of_isWord h.mode,
    Text.words_of_isWord h.kind, Text.words_of_isWord h.object]
  rfl

/-- No other tab stands in front of it. -/
theorem IsWorded.tab_not_mem_front (h : listed.IsWorded) : '\t' ∉ listed.front := by
  have dense : ∀ {word}, Text.IsWord word → '\t' ∉ word := fun word inside =>
    absurd (word.dense '\t' inside) (by decide)
  unfold front
  simp [dense h.mode, dense h.kind, dense h.object]

/-- A line is read back as the entry, whatever its path is. -/
theorem IsWorded.parse?_toLine (h : listed.IsWorded) :
    TreeEntry.parse? listed.toLine = some listed.toTreeEntry := by
  unfold toLine
  rw [parse?_append_cons h.tab_not_mem_front, h.words_front]
  simp only [String.ofList_toList]

/-- A line has a zero where one of its parts has one. -/
theorem zero_not_mem_toLine_iff :
    Char.ofNat 0 ∉ listed.toLine ↔
      listed.IsFree ∧ Char.ofNat 0 ∉ listed.object.toList := by
  have space : Char.ofNat 0 ≠ ' ' := by decide
  have tab : Char.ofNat 0 ≠ '\t' := by decide
  simp only [toLine, front, List.mem_append, List.mem_cons, space, tab, false_or, not_or]
  constructor
  · rintro ⟨⟨mode, kind, object⟩, path⟩
    exact ⟨⟨mode, kind, path⟩, object⟩
  · rintro ⟨⟨mode, kind, path⟩, object⟩
    exact ⟨⟨mode, kind, object⟩, path⟩

/-- The parts of a line, one by one. -/
theorem forall_part_iff :
    (∀ part ∈ [listed.mode, listed.kind, listed.object, listed.path],
        Char.ofNat 0 ∉ part.toList) ↔ Char.ofNat 0 ∉ listed.toLine := by
  rw [zero_not_mem_toLine_iff]
  simp only [List.forall_mem_cons, List.not_mem_nil, false_implies, implies_true, and_true]
  exact ⟨fun ⟨mode, kind, object, path⟩ => ⟨⟨mode, kind, path⟩, object⟩,
    fun ⟨free, object⟩ => ⟨free.mode, free.kind, object, free.path⟩⟩

/-- When only the name of the object can hold a zero, a line is read as its entry, or with a zero
not at all. -/
theorem IsWorded.filterMap_parse?_pieces (h : listed.IsWorded) (apart : listed.IsFree) :
    (pieces listed.toLine).filterMap TreeEntry.parse? =
      if Char.ofNat 0 ∈ listed.object.toList then [] else [listed.toTreeEntry] := by
  split_ifs with zero
  · -- The line is cut at the last zero, so that the piece behind it has no other.
    cases last : Text.splitLast? (Char.ofNat 0) listed.object.toList with
    | none => exact absurd zero (Text.splitLast?_eq_none_iff.1 last)
    | some parts =>
      obtain ⟨before, after⟩ := parts
      obtain ⟨cut, free⟩ := Text.eq_of_splitLast? last
      have front_eq : listed.front = (listed.mode.toList ++ ' ' :: (listed.kind.toList ++
          ' ' :: before)) ++ Char.ofNat 0 :: after := by
        simp only [front, cut, List.append_assoc, List.cons_append]
      have dense : ∀ c ∈ after, Text.isBlank c = false := fun c inside => by
        refine h.object.dense c ?_
        rw [cut]
        exact List.mem_append_right _ (List.mem_cons_of_mem _ inside)
      have noTab := h.tab_not_mem_front
      have behind : Char.ofNat 0 ∉ after ++ '\t' :: listed.path.toList := by
        simp [free, apart.path]
      rw [front_eq] at noTab
      rw [toLine, front_eq, List.append_assoc, List.cons_append]
      exact filterMap_parse?_cut noTab dense behind
  · have free := zero_not_mem_toLine_iff.2 ⟨apart, zero⟩
    have filled : listed.toLine ≠ [] := List.append_ne_nil_of_right_ne_nil _ nofun
    rw [pieces_eq_singleton filled free, List.filterMap_cons_some h.parse?_toLine,
      List.filterMap_nil]

end ListedEntry

/-! ## Listings of entries -/

variable {entries : List ListedEntry}

/-- The entries that are read of a listing, line by line. -/
theorem parseEntries_listing (lines : List (List Char)) :
    parseEntries (listing lines) =
      lines.flatMap fun line => (pieces line).filterMap TreeEntry.parse? := by
  rw [parseEntries, listingLines_listing, List.filterMap_flatMap]

/-- No zero is in an entry that is read. -/
theorem isFree_of_mem_parseEntries (h : entry ∈ parseEntries (listing lines)) : entry.IsFree := by
  rw [parseEntries_listing] at h
  obtain ⟨line, -, read⟩ := List.mem_flatMap.1 h
  obtain ⟨piece, inside, parsed⟩ := List.mem_filterMap.1 read
  obtain ⟨-, -, free⟩ := of_mem_pieces inside
  obtain ⟨mode, kind, path⟩ := subset_of_parse? parsed
  exact ⟨fun zero => free (mode zero), fun zero => free (kind zero), fun zero => free (path zero)⟩

/-- Entries are read back in order, without those whose object's name holds a zero. -/
theorem parseEntries_listing_toLine (worded : ∀ listed ∈ entries, listed.IsWorded)
    (free : ∀ listed ∈ entries, listed.IsFree) :
    parseEntries (listing (entries.map ListedEntry.toLine)) =
      (entries.filter fun listed => Char.ofNat 0 ∉ listed.object.toList).map
        ListedEntry.toTreeEntry := by
  rw [parseEntries_listing, List.flatMap_map]
  induction entries with
  | nil => rfl
  | cons listed rest ih =>
    have later := ih (fun other inside => worded other (List.mem_cons_of_mem _ inside))
      fun other inside => free other (List.mem_cons_of_mem _ inside)
    have first := (worded listed List.mem_cons_self).filterMap_parse?_pieces
      (free listed List.mem_cons_self)
    rw [List.flatMap_cons, first, later]
    by_cases zero : Char.ofNat 0 ∈ listed.object.toList
    · simp [zero]
    · simp [zero]

/-- Entries whose lines hold no zero are all read back. -/
theorem parseEntries_listing_of_free (worded : ∀ listed ∈ entries, listed.IsWorded)
    (free : ∀ listed ∈ entries, Char.ofNat 0 ∉ listed.toLine) :
    parseEntries (listing (entries.map ListedEntry.toLine)) =
      entries.map ListedEntry.toTreeEntry := by
  have parts := fun listed inside =>
    ListedEntry.zero_not_mem_toLine_iff.1 (free listed inside)
  have all : (entries.filter fun listed => Char.ofNat 0 ∉ listed.object.toList) = entries :=
    List.filter_eq_self.2 fun listed inside => decide_eq_true (parts listed inside).2
  rw [parseEntries_listing_toLine worded fun listed inside => (parts listed inside).1, all]

/-- A listing is read back, entry by entry and in order, exactly when no zero stands within a mode,
a kind, the name of an object or a path, where it would end an entry: then none is lost, whatever
else a path holds, tabs, blanks and line breaks included. A listing of the paths alone is read back
exactly when none of them is empty or holds a zero. -/
theorem listing_read_back (entries : List ListedEntry)
    (worded : ∀ listed ∈ entries, listed.IsWorded) :
    (parseEntries (listing (entries.map ListedEntry.toLine)) =
        entries.map ListedEntry.toTreeEntry ↔
      ∀ listed ∈ entries, ∀ part ∈ [listed.mode, listed.kind, listed.object, listed.path],
        Char.ofNat 0 ∉ part.toList) ∧
    (parseNames (listing (entries.map fun listed => listed.path.toList)) =
        entries.map (·.path) ↔
      ∀ listed ∈ entries, listed.path ≠ "" ∧ Char.ofNat 0 ∉ listed.path.toList) := by
  simp only [ListedEntry.forall_part_iff]
  constructor
  · refine ⟨fun same => ?_, parseEntries_listing_of_free worded⟩
    -- What is read holds no zero, so one can only be in the name of an object; then the entry would
    -- be lost, and fewer be read than were written.
    have free : ∀ listed ∈ entries, listed.IsFree := by
      intro listed inside
      have read : listed.toTreeEntry ∈ parseEntries (listing (entries.map ListedEntry.toLine)) := by
        rw [same]
        exact List.mem_map_of_mem inside
      exact isFree_of_mem_parseEntries read
    have lengths := congrArg List.length same
    rw [parseEntries_listing_toLine worded free, List.length_map, List.length_map,
      List.length_filter_eq_length_iff] at lengths
    exact fun listed inside => ListedEntry.zero_not_mem_toLine_iff.2
      ⟨free listed inside, of_decide_eq_true (lengths listed inside)⟩
  · have names : (entries.map fun listed => listed.path.toList) =
        (entries.map (·.path)).map String.toList := by
      rw [List.map_map]
      rfl
    rw [names, parseNames_listing_iff, List.forall_mem_map]

/-- A path with a tab, blanks and a line break, and a submodule with a blank for a name. -/
theorem listing_read_back_tabs :
    let entries : List ListedEntry :=
      [⟨⟨"100644", "blob", "a\tb c\n.py"⟩, "8ab686ea"⟩, ⟨⟨"160000", "commit", " "⟩, "5e1f0c2d"⟩]
    (∀ listed ∈ entries, listed.IsWorded) ∧
      parseEntries (listing (entries.map ListedEntry.toLine)) =
        [⟨"100644", "blob", "a\tb c\n.py"⟩, ⟨"160000", "commit", " "⟩] ∧
      parseNames (listing ["a\tb c\n.py".toList, [' ']]) = ["a\tb c\n.py", " "] := by
  intro entries
  have worded : ∀ listed ∈ entries, listed.IsWorded := by decide
  obtain ⟨whole, names⟩ := listing_read_back entries worded
  exact ⟨worded, whole.2 (by decide), names.2 (by decide)⟩

/-- A file whose object has a name that a zero ends, which is no blank. -/
def cutEntry : ListedEntry :=
  ⟨⟨"100644", "blob", "a.py"⟩, String.ofList ['0', Char.ofNat 0]⟩

/-- The file is lost: the zero ends the line in front of its tab. -/
theorem not_listing_read_back :
    (cutEntry.IsWorded ∧ cutEntry.path ≠ "" ∧ Char.ofNat 0 ∉ cutEntry.path.toList) ∧
      parseEntries (listing [cutEntry.toLine]) = [] ∧
      parseEntries (listing [cutEntry.toLine]) ≠ [cutEntry.toTreeEntry] := by
  decide

end CodeDelta.Git
