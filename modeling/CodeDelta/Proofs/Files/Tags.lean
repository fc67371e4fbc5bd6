import CodeDelta.Proofs.Files.OsPath

/-!
# Tags of files

The tag of a file is its path below a root. For a path that goes on from the root along names it is
these names with slashes between them, whatever the root is (`relative_along`), and no spelling of
the path or of the root changes a tag. The operating system's names need not be text, and then a tag
has what is shown of them: two files below one root have two tags exactly when their names are shown
in two ways, which names that are text always are (`OsPath.relative_identifies`).
-/

namespace CodeDelta.Path

/-- A path and a name behind it; nothing stands between an empty path or a slash and the name. -/
def push (path name : String) : String :=
  if path = "" ∨ path.toList.getLast? = some '/' then path ++ name else path ++ "/" ++ name

/-- The path that goes on from another one along some names. -/
def along (root : String) (names : List String) : String := names.foldl push root

/-! ## The components of a path along names -/

/-- A name stands for itself. -/
theorem plain_part {name : String} (h : IsPart name) : plain name = [.named name] := by
  unfold plain
  rw [pieces_of_not_mem h.2.2.2, List.filterMap_cons_some (ofPiece?_part h)]
  rfl

/-- A path along names stands for them. -/
theorem plain_join {names : List String} (h : ∀ name ∈ names, IsPart name) :
    plain (join names) = names.map Component.named := by
  unfold join
  induction names with
  | nil => exact plain_blank.1
  | cons name rest ih =>
    have first : plain name = [.named name] := plain_part (h name List.mem_cons_self)
    have later := ih fun other inside => h other (List.mem_cons_of_mem name inside)
    cases rest with
    | nil => rw [String.intercalate_singleton, first, List.map_singleton]
    | cons next rest =>
      rw [String.intercalate_cons_cons, plain_append_slash, first, later]
      rfl

/-- A path that is a name has one component. -/
theorem components_part {name : String} (h : IsPart name) : components name = [.named name] := by
  obtain ⟨-, notHere, -, noSlash⟩ := id h
  have relative_ : isAbsolute name = false := by
    unfold isAbsolute
    rw [beq_eq_false_iff_ne]
    exact fun first => noSlash (List.mem_of_head? first)
  have notDot : ¬(pieces name).head? = some ['.'] := by
    rw [pieces_of_not_mem noSlash]
    exact fun same => notHere (String.toList_inj.1 (Option.some.inj same))
  rw [components_eq, start, relative_, if_neg Bool.false_ne_true, if_neg notDot, plain_part h]
  rfl

/-- A name behind a path is one component more. -/
theorem components_push {name : String} (h : IsPart name) (path : String) :
    components (push path name) = components path ++ [.named name] := by
  unfold push
  by_cases empty : path = ""
  · rw [if_pos (Or.inl empty), empty, String.empty_append, components_part h]
    rfl
  by_cases ends : path.toList.getLast? = some '/'
  · obtain ⟨front, chars⟩ := List.getLast?_eq_some_iff.1 ends
    have split : path = String.ofList front ++ "/" := by
      rw [← String.toList_inj, chars, String.toList_append, String.toList_ofList]
      rfl
    -- The path already ends in the slash that is needed.
    rw [if_pos (Or.inr ends), split, components_behind_slash, plain_part h]
  · rw [if_neg (not_or.2 ⟨empty, ends⟩), components_append_slash empty, plain_part h]

/-- A path along names has them as its last components. -/
theorem components_along {names : List String} (h : ∀ name ∈ names, IsPart name) (root : String) :
    components (along root names) = components root ++ names.map Component.named := by
  induction names generalizing root with
  | nil => exact (List.append_nil _).symm
  | cons name rest ih =>
    have valid : ∀ other ∈ rest, IsPart other :=
      fun other inside => h other (List.mem_cons_of_mem name inside)
    have later := ih valid (push root name)
    rw [along, List.foldl_cons, ← along, later, components_push (h name List.mem_cons_self),
      List.append_assoc]
    rfl

/-! ## Tags -/

/-- What stands behind a root is found behind it. -/
theorem below?_append (root parts : List Component) : below? (root ++ parts) root = some parts := by
  induction root with
  | nil => cases parts <;> rfl
  | cons part rest ih => rw [List.cons_append, below?, if_pos rfl, ih]

/-- What is found behind a root stands behind it. -/
theorem eq_of_below? {parts root rest : List Component} (h : below? parts root = some rest) :
    parts = root ++ rest := by
  induction root generalizing parts with
  | nil =>
    have itself : below? parts [] = some parts := by cases parts <;> rfl
    exact Option.some.inj (itself.symm.trans h)
  | cons lead root ih =>
    cases parts with
    | nil => exact absurd h.symm (Option.some_ne_none rest)
    | cons part parts =>
      rw [below?] at h
      split_ifs at h with same
      rw [ih h, same, List.cons_append]

/-- The names of named components. -/
theorem filterMap_name?_named (names : List String) :
    (names.map Component.named).filterMap Component.name? = names := by
  rw [List.filterMap_map]
  exact List.filterMap_some

/-- Below a root stand the names that a path goes along from there. -/
theorem namesBelow_along {names : List String} (h : ∀ name ∈ names, IsPart name) (root : String) :
    namesBelow (components (along root names)) (components root) = names := by
  unfold namesBelow
  rw [components_along h, below?_append, Option.getD_some, filterMap_name?_named]

/-- The tag of a path along names from a root is these names with slashes between them. -/
theorem relative_along {names : List String} (h : ∀ name ∈ names, IsPart name) (root : String) :
    relative (along root names) root = "/".intercalate names := by
  rw [relative_eq, namesBelow_along h]

/-- The tag of a path that is spelled behind a root with a slash between them. -/
theorem relative_append_join {names : List String} (h : ∀ name ∈ names, IsPart name) {root : String}
    (filled : root ≠ "") : relative (root ++ "/" ++ join names) root = join names := by
  rw [relative_eq]
  unfold namesBelow
  rw [components_append_slash filled, plain_join h, below?_append, Option.getD_some,
    filterMap_name?_named]
  rfl

end CodeDelta.Path

/-! ## Tags of paths that need not be text -/

namespace CodeDelta.OsPath

/-- The byte of a dot. -/
def dot : UInt8 := 46

/-- The byte of a slash. -/
def slash : UInt8 := 47

/-- Whether bytes can name a component of a path. -/
def IsPart (name : OsPath) : Prop := name ≠ [] ∧ name ≠ [dot] ∧ name ≠ [dot, dot] ∧ slash ∉ name

instance (name : OsPath) : Decidable (IsPart name) :=
  inferInstanceAs (Decidable (name ≠ [] ∧ name ≠ [dot] ∧ name ≠ [dot, dot] ∧ slash ∉ name))

/-- A path and a name behind it; nothing stands between an empty path or a slash and the name. -/
def push (path name : OsPath) : OsPath :=
  if path = [] ∨ path.getLast? = some slash then path ++ name else path ++ slash :: name

/-- The path that goes on from another one along some names. -/
def along (root : OsPath) (names : List OsPath) : OsPath := names.foldl push root

/-- Two spellings of one path. -/
def SameSpelling (path other : OsPath) : Prop :=
  Path.SameSpelling (octetText path) (octetText other)

/-- Different bytes have different octets. -/
theorem octetText_injective {path other : OsPath} (same : octetText path = octetText other) :
    path = other := by
  have bytes := congrArg Text.ofOctets (String.ofList_injective same)
  rwa [Text.ofOctets_octets, Text.ofOctets_octets] at bytes

/-- The octets of bytes are read back. -/
theorem ofOctetText_octetText (path : OsPath) : ofOctetText (octetText path) = path := by
  unfold ofOctetText octetText
  rw [String.toList_ofList, Text.ofOctets_octets]

/-- A slash is its own octet, and no other's. -/
theorem octet_eq_slash_iff {byte : UInt8} : Char.ofNat byte.toNat = '/' ↔ byte = slash := by
  constructor
  · intro same
    have back := Text.ofOctets_octets [byte]
    unfold Text.octets Text.ofOctets at back
    rw [List.map_singleton, List.map_singleton, same] at back
    exact (List.singleton_inj.1 back).symm
  · rintro rfl
    rfl

/-- The octets of two paths are those of both. -/
theorem octetText_append (path more : OsPath) :
    octetText (path ++ more) = octetText path ++ octetText more := by
  unfold octetText Text.octets
  rw [List.map_append, String.ofList_append]

/-- The octets of a name are a name. -/
theorem isPart_octetText {name : OsPath} (h : IsPart name) : Path.IsPart (octetText name) := by
  obtain ⟨filled, notHere, notUp, noSlash⟩ := h
  have apart {other : OsPath} {text : String} (own : octetText other = text)
      (differs : name ≠ other) : octetText name ≠ text :=
    fun same => differs (octetText_injective (same.trans own.symm))
  refine ⟨apart rfl filled, apart (by decide) notHere, apart (by decide) notUp, ?_⟩
  intro inside
  unfold octetText Text.octets at inside
  rw [String.toList_ofList, List.mem_map] at inside
  obtain ⟨byte, member, same⟩ := inside
  exact noSlash (octet_eq_slash_iff.1 same ▸ member)

/-- A name behind a path stands there in octets. -/
theorem octetText_push (path name : OsPath) :
    octetText (push path name) = Path.push (octetText path) (octetText name) := by
  have empty : octetText path = "" ↔ path = [] :=
    ⟨fun same => octetText_injective same, fun same => same ▸ rfl⟩
  have last : (octetText path).toList.getLast? = some '/' ↔ path.getLast? = some slash := by
    unfold octetText Text.octets
    rw [String.toList_ofList, List.getLast?_map, Option.map_eq_some_iff]
    simp only [octet_eq_slash_iff]
    exact ⟨fun ⟨byte, found, same⟩ => same ▸ found, fun found => ⟨slash, found, rfl⟩⟩
  have split : path ++ slash :: name = path ++ ([slash] ++ name) := rfl
  have sign : octetText [slash] = "/" := rfl
  unfold push Path.push
  simp only [empty, last]
  split_ifs
  · exact octetText_append path name
  · rw [split, octetText_append, octetText_append, sign, String.append_assoc]

/-- A path along names goes along their octets. -/
theorem octetText_along (root : OsPath) (names : List OsPath) :
    octetText (along root names) = Path.along (octetText root) (names.map octetText) := by
  induction names generalizing root with
  | nil => rfl
  | cons name rest ih =>
    rw [along, List.foldl_cons, ← along, ih, octetText_push]
    rfl

/-- The tag of a path along names from a root is what is shown of them, with slashes between. -/
theorem relative_along {names : List OsPath} (h : ∀ name ∈ names, IsPart name) (root : OsPath) :
    relative (along root names) root = "/".intercalate (names.map shown) := by
  have parts : ∀ name ∈ names.map octetText, Path.IsPart name :=
    List.forall_mem_map.2 fun name inside => isPart_octetText (h name inside)
  have back : (fun name => shown (ofOctetText name)) ∘ octetText = shown :=
    funext fun name => congrArg shown (ofOctetText_octetText name)
  unfold relative
  dsimp only
  rw [octetText_along, Path.namesBelow_along parts, List.map_map, back]

/-- What is shown of a name has characters, and no slash. -/
theorem IsPart.shown {name : OsPath} (h : IsPart name) :
    shown name ≠ "" ∧ '/' ∉ (shown name).toList := by
  obtain ⟨filled, -, -, noSlash⟩ := h
  unfold OsPath.shown
  rw [String.toList_ofList]
  exact ⟨fun empty => Text.decodeLossy_ne_nil filled (String.ofList_eq_empty_iff.1 empty),
    fun inside => noSlash (Text.mem_of_mem_decodeLossy (by decide) (by decide) inside)⟩

/-- Two paths along names from a root have one tag exactly when the names are shown alike. -/
theorem relative_along_inj {names others : List OsPath} (h : ∀ name ∈ names, IsPart name)
    (h' : ∀ name ∈ others, IsPart name) (root : OsPath) :
    relative (along root names) root = relative (along root others) root ↔
      names.map shown = others.map shown := by
  have parts {names : List OsPath} (h : ∀ name ∈ names, IsPart name) :
      ∀ part ∈ names.map shown, part ≠ "" ∧ '/' ∉ part.toList :=
    List.forall_mem_map.2 fun name inside => (h name inside).shown
  rw [relative_along h, relative_along h']
  exact ⟨Text.intercalate_inj_of_ne rfl (parts h) (parts h'), congrArg _⟩

/-- Tags identify files by the text of their names: the tag of a path along names from a root is
what is shown of these names, with slashes between them, and two paths have one tag exactly when
their names are shown alike. Names that are text are shown as they are, so different names of that
kind have different tags. No spelling of a path or a root makes a difference to any tag. -/
theorem relative_identifies (root : OsPath) {names others : List OsPath}
    (h : ∀ name ∈ names, IsPart name) (h' : ∀ name ∈ others, IsPart name) :
    relative (along root names) root = "/".intercalate (names.map shown) ∧
      (relative (along root names) root = relative (along root others) root ↔
        names.map shown = others.map shown) ∧
      (∀ texts : List String, names = texts.map ofText →
        relative (along root names) root = "/".intercalate texts ∧
          ∀ texts' : List String, others = texts'.map ofText → names ≠ others →
            relative (along root names) root ≠ relative (along root others) root) ∧
      ∀ path path' root', SameSpelling path path' → SameSpelling root root' →
        relative path root = relative path' root' := by
  refine ⟨relative_along h root, relative_along_inj h h' root, ?_, ?_⟩
  · rintro texts rfl
    have back (texts : List String) : (texts.map ofText).map shown = texts := by
      rw [List.map_map]
      exact List.map_id'' shown_ofText texts
    refine ⟨(relative_along h root).trans (congrArg _ (back texts)), ?_⟩
    rintro texts' rfl different same
    rw [relative_along_inj h h', back, back] at same
    exact different (congrArg _ same)
  · intro path path' root' paths roots
    unfold relative
    rw [Path.SameSpelling.components_eq paths, Path.SameSpelling.components_eq roots]

/-- A file of a root that goes up beside one whose name is no text, and the tag of the first one
with the path and the root spelled in another way. -/
theorem relative_identifies_siblings :
    let root := ofText "../lib"
    let names := ["a b", "é.py"].map ofText
    let others : List OsPath := [ofText "a b", [0xC3, dot, 0x70, 0x79]]
    ((∀ name ∈ names, IsPart name) ∧ ∀ name ∈ others, IsPart name) ∧
      relative (along root names) root = "a b/é.py" ∧
      relative (along root names) root ≠ relative (along root others) root ∧
      relative (ofText "..//lib/a b/./é.py") (ofText "../lib/") = "a b/é.py" := by
  intro root names others
  have parts : ∀ name ∈ names, IsPart name := by decide
  have parts' : ∀ name ∈ others, IsPart name := by decide
  obtain ⟨-, alike, texts, spelled⟩ := relative_identifies root parts parts'
  obtain ⟨tag, -⟩ := texts _ rfl
  have roots : SameSpelling root (ofText "../lib/") :=
    .symm _ _ (.rel _ _ (.trailing (octetText root) (by decide)))
  have paths : SameSpelling (along root names) (ofText "..//lib/a b/./é.py") := by
    refine .trans _ (octetName "../lib/a b/./é.py") _ (.symm _ _ (.rel _ _ ?_))
      (.symm _ _ (.rel _ _ ?_))
    · exact .inner "../lib/a b" (octetName "é.py")
    · exact .repeated ".." (octetName "lib/a b/./é.py")
  refine ⟨⟨parts, parts'⟩, tag, fun same => ?_, (spelled _ _ _ paths roots).symm.trans tag⟩
  exact absurd (alike.1 same) (by decide)

/-- Two files of one directory whose names are not text have one tag. -/
theorem not_relative_identifies :
    let root := ofText "src"
    let names : List OsPath := [[0xFF, dot, 0x70, 0x79]]
    let others : List OsPath := [[0xFE, dot, 0x70, 0x79]]
    ((∀ name ∈ names, IsPart name) ∧ (∀ name ∈ others, IsPart name) ∧ names ≠ others) ∧
      relative (along root names) root = relative (along root others) root := by
  intro root names others
  have parts : ∀ name ∈ names, IsPart name := by decide
  have parts' : ∀ name ∈ others, IsPart name := by decide
  exact ⟨⟨parts, parts', by decide⟩, (relative_along_inj parts parts' root).2 (by decide)⟩

end CodeDelta.OsPath
