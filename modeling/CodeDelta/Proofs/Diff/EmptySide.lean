import CodeDelta.Proofs.Diff.ByFile

/-!
# Comparisons with an empty side

An empty structure tags no element, so files do not count in a comparison with it, whatever the
other side is. The records are one for every name, with the last element of that name
(`get_detail_of_empty_left`, `get_detail_of_empty_right`). A tree that was created or deleted is
therefore reported in full exactly when none of its names stands in two of its files
(`reportedInFull_iff`), where keys with files would show all of it (`reportedInFull_byFile`).
-/

namespace CodeDelta

/-- What tells the elements of a tree apart: the file and the name. -/
def Element.filePlace (element : Element) : Option String × String := (element.file, element.name)

/-- Every record is of the kind, and there is exactly one for each file and name of the elements
that have a name. -/
def ReportedInFull (kind : ChangeKind) (elements : List Element) (records : List Record) : Prop :=
  (∀ record ∈ records, record.kind = kind) ∧
    (records.map fun record => record.element.filePlace).Perm
      ((elements.filter fun element => element.name ≠ "").map Element.filePlace).dedup

/-- Elements of one name that is not empty are elements of one file. -/
def NamesTellFiles (elements : List Element) : Prop :=
  ∀ a ∈ elements, ∀ b ∈ elements, a.name ≠ "" → a.name = b.name → a.file = b.file

instance (elements : List Element) : Decidable (NamesTellFiles elements) :=
  inferInstanceAs (Decidable (∀ a ∈ elements, ∀ b ∈ elements, _))

namespace Structure

variable {nothing whole : Structure}

/-- A structure without elements has none in any category. -/
theorem elements_eq_nil (h : nothing.elementCount = 0) (category : Category) :
    nothing.elements category = [] := by
  unfold elementCount at h
  cases category <;> exact List.eq_nil_of_length_eq_zero (by simp only [elements]; omega)

/-- A structure without elements tags none. -/
theorem not_hasFileTag (h : nothing.elementCount = 0) : ¬nothing.HasFileTag := by
  rintro ⟨category, element, he, -⟩
  rw [elements_eq_nil h] at he
  exact List.not_mem_nil he

end Structure

section EmptySide

variable {category : Category} {nothing : Structure}

/-- Beside an empty old side every new element in force by its name is added. -/
theorem get_detail_of_empty_left (h : nothing.elementCount = 0) (whole : Structure) :
    (nothing.diff whole).detail.get category =
      (current false category (whole.elements category)).map .added := by
  have mixed : ¬(nothing.HasFileTag ∧ whole.HasFileTag) := fun tags =>
    Structure.not_hasFileTag h tags.1
  rw [get_detail_diff, fileScoped_eq_false mixed, Structure.elements_eq_nil h,
    diffCategory_nil_left]

/-- Beside an empty new side every old element in force by its name is removed. -/
theorem get_detail_of_empty_right (h : nothing.elementCount = 0) (whole : Structure) :
    (whole.diff nothing).detail.get category =
      (current false category (whole.elements category)).map .removed := by
  have mixed : ¬(whole.HasFileTag ∧ nothing.HasFileTag) := fun tags =>
    Structure.not_hasFileTag h tags.2
  rw [get_detail_diff, fileScoped_eq_false mixed, Structure.elements_eq_nil h,
    diffCategory_nil_right]

end EmptySide

/-! ## Files and names -/

section FilesAndNames

variable {category : Category} (noImport : category ≠ .importDecl) (elements : List Element)
include noImport

/-- The functions and classes that can be matched are those with a name. -/
theorem matchable_eq :
    matchable category elements = elements.filter fun element => element.name ≠ "" := by
  unfold matchable
  refine List.filter_congr fun element _ => ?_
  rw [identity_eq_name noImport, Bool.eq_iff_iff]
  simp

/-- Of the elements in force by name no two have one file and name. -/
theorem nodup_filePlaces : ((current false category elements).map Element.filePlace).Nodup := by
  have keys : (current false category elements).map (Element.key false category) =
      ((current false category elements).map Element.filePlace).map
        fun place => ⟨none, place.2⟩ := by
    rw [List.map_map]
    refine List.map_congr_left fun element _ => ?_
    unfold Element.key
    rw [identity_eq_name noImport]
    rfl
  have distinct : ((current false category elements).map (Element.key false category)).Nodup :=
    nodup_keys_lastBy _ _
  rw [keys] at distinct
  exact distinct.of_map _

/-- The elements in force by name show every file and name exactly when names tell files. -/
theorem perm_filePlaces_iff :
    ((current false category elements).map Element.filePlace).Perm
        ((elements.filter fun element => element.name ≠ "").map Element.filePlace).dedup ↔
      NamesTellFiles elements := by
  rw [List.perm_ext_iff_of_nodup (nodup_filePlaces noImport elements) (List.nodup_dedup _)]
  simp only [List.mem_dedup]
  rw [← matchable_eq noImport]
  constructor
  · intro full a ha b hb named same
    -- Both places are shown, by elements in force of one name, which are one.
    have shown : ∀ element ∈ elements, element.name ≠ "" →
        ∃ last ∈ current false category elements, last.filePlace = element.filePlace := by
      intro element he named
      refine List.mem_map.1 ((full element.filePlace).2 (List.mem_map_of_mem ?_))
      rw [mem_matchable, identity_eq_name noImport]
      exact ⟨he, named⟩
    obtain ⟨x, hx, placeX⟩ := shown a ha named
    obtain ⟨y, hy, placeY⟩ := shown b hb (same ▸ named)
    obtain ⟨fileX, nameX⟩ := Prod.mk.inj placeX
    obtain ⟨fileY, nameY⟩ := Prod.mk.inj placeY
    have one : x = y := eq_of_mem_lastBy hx hy
      ((key_false_eq_iff noImport).2 (nameX.trans (same.trans nameY.symm)))
    rw [← fileX, ← fileY, one]
  · intro tell place
    rw [List.mem_map, List.mem_map]
    constructor
    · rintro ⟨element, he, rfl⟩
      exact ⟨element, (lastBy_sublist _ _).subset he, rfl⟩
    · rintro ⟨element, he, rfl⟩
      -- The last element of the name is of the same file.
      obtain ⟨last, hl, same⟩ := (exists_mem_lastBy (Element.key false category)
        (matchable category elements) (element.key false category)).2 ⟨element, he, rfl⟩
      have name : last.name = element.name := (key_false_eq_iff noImport).1 same
      have named : last.name ≠ "" := by
        rw [name, ← identity_eq_name noImport]
        exact (mem_matchable.1 he).2
      have file := tell last (mem_of_mem_current hl) element (mem_matchable.1 he).1 named name
      exact ⟨last, hl, Prod.ext file name⟩

/-- Where files count, the elements in force show every file and name. -/
theorem perm_filePlaces_byFile :
    ((current true category elements).map Element.filePlace).Perm
      ((elements.filter fun element => element.name ≠ "").map Element.filePlace).dedup := by
  -- The key of a function or class is its file and name, and nothing else.
  have keys : ∀ element : Element,
      element.key true category = ⟨element.filePlace.1, element.filePlace.2⟩ := by
    intro element
    unfold Element.key
    rw [identity_eq_name noImport, Bool.true_and, if_pos (bne_iff_ne.2 noImport)]
    rfl
  have place_eq_iff : ∀ (element : Element) (place : Option String × String),
      element.filePlace = place ↔ element.key true category = ⟨place.1, place.2⟩ := by
    intro element place
    rw [keys, Key.mk.injEq, Prod.ext_iff]
  have distinct : ((current true category elements).map Element.filePlace).Nodup := by
    have byKey : ((current true category elements).map (Element.key true category)).Nodup :=
      nodup_keys_lastBy _ _
    rw [List.map_congr_left fun element _ => keys element] at byKey
    refine List.Nodup.of_map (fun place => (⟨place.1, place.2⟩ : Key)) ?_
    rw [List.map_map]
    exact byKey
  rw [List.perm_ext_iff_of_nodup distinct (List.nodup_dedup _)]
  intro place
  rw [List.mem_dedup, ← matchable_eq noImport, List.mem_map, List.mem_map]
  simp only [place_eq_iff]
  exact exists_mem_lastBy (Element.key true category) (matchable category elements) _

/-- Where files count, what is compared with nothing is reported in full, whatever the names. -/
theorem reportedInFull_byFile :
    ReportedInFull .added elements (diffCategory true category [] elements) ∧
      ReportedInFull .removed elements (diffCategory true category elements []) := by
  have full := perm_filePlaces_byFile noImport elements
  rw [diffCategory_nil_left, diffCategory_nil_right]
  unfold ReportedInFull
  rw [List.map_map, List.map_map]
  exact ⟨⟨List.forall_mem_map.2 fun element _ => rfl, full⟩,
    ⟨List.forall_mem_map.2 fun element _ => rfl, full⟩⟩

end FilesAndNames

/-- Functions and classes of a tree that was created, or deleted, are reported in full exactly when
none of their names stands in two files. -/
theorem reportedInFull_iff {nothing : Structure} (h : nothing.elementCount = 0)
    (whole : Structure) {category : Category} (noImport : category ≠ .importDecl) :
    (ReportedInFull .added (whole.elements category)
        ((nothing.diff whole).detail.get category) ↔
      NamesTellFiles (whole.elements category)) ∧
    (ReportedInFull .removed (whole.elements category)
        ((whole.diff nothing).detail.get category) ↔
      NamesTellFiles (whole.elements category)) := by
  have elements := perm_filePlaces_iff noImport (whole.elements category)
  rw [get_detail_of_empty_left h, get_detail_of_empty_right h]
  unfold ReportedInFull
  rw [List.map_map, List.map_map]
  constructor
  · refine Iff.trans (and_iff_right ?_) elements
    exact List.forall_mem_map.2 fun element _ => rfl
  · refine Iff.trans (and_iff_right ?_) elements
    exact List.forall_mem_map.2 fun element _ => rfl

/-- A tree of two files, with one function in each. -/
def Structure.ofTwoFiles (first second : Element) : Structure :=
  ofFiles "src" [("a.py", { blank with functions := [first] }),
    ("b.py", { blank with functions := [second] })]

/-- Two functions with names of their own are reported when their files are created or deleted. -/
theorem reportedInFull_iff_two_names :
    (Structure.ofDirectory "src").elementCount = 0 ∧
    ReportedInFull .added ((Structure.ofTwoFiles (.named "run") (.named "stop")).elements .function)
      (((Structure.ofDirectory "src").diff
        (.ofTwoFiles (.named "run") (.named "stop"))).detail.get .function) ∧
    ReportedInFull .removed
      ((Structure.ofTwoFiles (.named "run") (.named "stop")).elements .function)
      (((Structure.ofTwoFiles (.named "run") (.named "stop")).diff
        (.ofDirectory "src")).detail.get .function) := by
  have empty : (Structure.ofDirectory "src").elementCount = 0 := rfl
  obtain ⟨created, deleted⟩ := reportedInFull_iff empty
    (.ofTwoFiles (.named "run") (.named "stop")) (show Category.function ≠ .importDecl by decide)
  exact ⟨empty, created.2 (by decide), deleted.2 (by decide)⟩

/-- Of two functions of one name in different files only the last one is reported when the files are
created. -/
theorem not_reportedInFull_one_name :
    ["a.py", "b.py"].Nodup ∧
    ((Structure.ofDirectory "src").diff
      (.ofTwoFiles { Element.named "run" with line := some 1 }
        { Element.named "run" with line := some 4 })).detail.get .function =
      [.added { Element.named "run" with line := some 4, file := some "b.py" }] ∧
    ¬ReportedInFull .added
      ((Structure.ofTwoFiles { Element.named "run" with line := some 1 }
        { Element.named "run" with line := some 4 }).elements .function)
      (((Structure.ofDirectory "src").diff
        (.ofTwoFiles { Element.named "run" with line := some 1 }
          { Element.named "run" with line := some 4 })).detail.get .function) := by
  refine ⟨by decide, by decide, fun full => ?_⟩
  have lengths := full.2.length_eq
  revert lengths
  decide

end CodeDelta
