import CodeDelta.Proofs.Diff.Records
import Mathlib.Algebra.GroupWithZero.Nat
import Mathlib.Data.List.Dedup

/-!
# Directories file by file

The structure of a directory lists the elements of its files, each under the path of its file. As
long as no path stands twice, the elements with one file's tag are that file's elements
(`filter_elements_ofFiles`), so the comparison of two directories is the comparison of their files
one by one: in functions and classes the records under a tag are those of the two files of that
path, in order (`filter_detail_ofFiles`), and the counts are sums over the paths.
-/

namespace CodeDelta

namespace Structure

/-- A directory's structure gathered from files, each given with its path. -/
def ofFiles (path : String) (files : List (String × Structure)) : Structure :=
  files.foldl (fun whole file => whole.absorb file.1 file.2) (ofDirectory path)

/-- A file's structure in which every element is said to come from a path. -/
def tagged (path : String) (file : Structure) : Structure where
  kind := file.kind
  path := file.path
  language := file.language
  fileCount := file.fileCount
  skippedFiles := file.skippedFiles
  functions := file.functions.map (Element.inFile path)
  classes := file.classes.map (Element.inFile path)
  imports := file.imports.map (Element.inFile path)

/-- The structure given for a path, an empty one when there is none. -/
def fileAt (files : List (String × Structure)) (path : String) : Structure :=
  (files.lookup path).getD blank

/-- Elements are tagged one by one. -/
@[simp]
theorem elements_tagged (path : String) (file : Structure) (category : Category) :
    (file.tagged path).elements category = (file.elements category).map (Element.inFile path) := by
  cases category <;> rfl

/-- A gathered file's elements follow those already there. -/
theorem elements_absorb (whole part : Structure) (path : String) (category : Category) :
    (whole.absorb path part).elements category =
      whole.elements category ++ (part.tagged path).elements category := by
  cases category <;> rfl

/-- A directory lists its files' elements, file by file. -/
theorem elements_ofFiles (path : String) (files : List (String × Structure))
    (category : Category) :
    (ofFiles path files).elements category =
      files.flatMap fun file => (file.2.tagged file.1).elements category := by
  have from_whole : ∀ whole : Structure,
      (files.foldl (fun whole file => whole.absorb file.1 file.2) whole).elements category =
        whole.elements category ++
          files.flatMap fun file => (file.2.tagged file.1).elements category := by
    induction files with
    | nil => exact fun whole => (List.append_nil _).symm
    | cons file rest ih =>
      intro whole
      rw [List.foldl_cons, ih, elements_absorb, List.flatMap_cons, List.append_assoc]
  have start : (ofDirectory path).elements category = [] := by cases category <;> rfl
  unfold ofFiles
  rw [from_whole, start, List.nil_append]

/-- The elements of a directory are those of its files, each under the path of its file. -/
theorem mem_elements_ofFiles {path : String} {files : List (String × Structure)}
    {category : Category} {element : Element} :
    element ∈ (ofFiles path files).elements category ↔
      ∃ file ∈ files, ∃ original ∈ file.2.elements category,
        original.inFile file.1 = element := by
  simp only [elements_ofFiles, List.mem_flatMap, elements_tagged, List.mem_map]

/-- Every element of a directory names one of the gathered files. -/
theorem exists_file_of_mem_ofFiles {path : String} {files : List (String × Structure)}
    {category : Category} {element : Element}
    (h : element ∈ (ofFiles path files).elements category) :
    ∃ file ∈ files.map Prod.fst, element.file = some file := by
  obtain ⟨file, hf, original, -, rfl⟩ := mem_elements_ofFiles.1 h
  exact ⟨file.1, List.mem_map_of_mem hf, rfl⟩

/-- The elements under a tag are those of the file that was gathered under it. -/
theorem filter_elements_ofFiles {files : List (String × Structure)}
    (distinct : (files.map Prod.fst).Nodup) (path file : String) (category : Category) :
    ((ofFiles path files).elements category).filter (fun element => element.file = some file) =
      ((fileAt files file).tagged file).elements category := by
  rw [elements_ofFiles]
  induction files with
  | nil => cases category <;> rfl
  | cons first rest ih =>
    obtain ⟨name, part⟩ := first
    rw [List.map_cons, List.nodup_cons] at distinct
    rw [List.flatMap_cons, List.filter_append, ih distinct.2]
    have mine : ∀ element ∈ (part.tagged name).elements category, element.file = some name := by
      intro element h
      rw [elements_tagged, List.mem_map] at h
      obtain ⟨original, -, rfl⟩ := h
      rfl
    by_cases same : file = name
    · subst same
      -- No later file has the path, so nothing follows the elements of this one.
      have none_later : rest.lookup file = none := by
        rw [List.lookup_eq_none_iff]
        intro entry he
        rw [bne_iff_ne]
        rintro rfl
        exact distinct.1 (List.mem_map.2 ⟨entry, he, rfl⟩)
      have later : ((fileAt rest file).tagged file).elements category = [] := by
        unfold fileAt
        rw [none_later]
        cases category <;> rfl
      rw [later, List.append_nil,
        List.filter_eq_self.2 fun element h => decide_eq_true (mine element h)]
      unfold fileAt
      rw [List.lookup_cons_self, Option.getD_some]
    · have none_here : ((part.tagged name).elements category).filter
          (fun element => element.file = some file) = [] := by
        rw [List.filter_eq_nil_iff]
        intro element h
        rw [mine element h, decide_eq_true_eq, Option.some_inj]
        exact fun e => same e.symm
      rw [none_here, List.nil_append]
      unfold fileAt
      rw [List.lookup_cons, beq_eq_false_iff_ne.2 same]

/-- A structure with an element that names its file is tagged, and a directory's elements all do. -/
theorem hasFileTag_ofFiles {path : String} {files : List (String × Structure)}
    (h : (ofFiles path files).elementCount ≠ 0) : (ofFiles path files).HasFileTag := by
  have some_element : ∃ category, (ofFiles path files).elements category ≠ [] := by
    by_contra none
    simp only [not_exists, not_not] at none
    have functions := none .function
    have classes := none .classDef
    have imports := none .importDecl
    refine h ?_
    unfold elementCount
    rw [show (ofFiles path files).functions = [] from functions,
      show (ofFiles path files).classes = [] from classes,
      show (ofFiles path files).imports = [] from imports]
    rfl
  obtain ⟨category, nonempty⟩ := some_element
  obtain ⟨element, he⟩ := List.exists_mem_of_ne_nil _ nonempty
  obtain ⟨file, -, hf⟩ := exists_file_of_mem_ofFiles he
  exact ⟨category, element, he, by rw [hf]; exact Option.some_ne_none file⟩

end Structure

open Structure (ofFiles fileAt)

/-! ## Records by file -/

/-- When files count, the records under a tag are those of the elements under that tag. -/
theorem filter_file_diffCategory {category : Category} (h : category ≠ .importDecl)
    (left right : List Element) (file : String) :
    (diffCategory true category left right).filter
        (fun record => record.element.file = some file) =
      diffCategory true category (left.filter fun element => element.file = some file)
        (right.filter fun element => element.file = some file) := by
  have key_file : ∀ element : Element, (element.key true category).file = element.file := by
    intro element
    cases category with
    | importDecl => exact absurd rfl h
    | _ => rfl
  have restricted := filter_diffCategory true category left right
    fun key => decide (key.file = some file)
  simp only [key_file] at restricted
  exact restricted

/-- Whether files count does not matter among elements of one file. -/
theorem diffCategory_of_one_file {category : Category} {left right : List Element}
    {file : String} (h : ∀ element ∈ left ++ right, element.file = some file)
    (byFile byFile' : Bool) :
    diffCategory byFile category left right = diffCategory byFile' category left right := by
  refine diffCategory_congr fun x hx y hy => ?_
  unfold Element.key
  rw [h x hx, h y hy]
  simp only [Key.mk.injEq, true_and]

/-- The records of a directory comparison under a tag are those of the comparison of the two files
under that tag. -/
theorem filter_detail_ofFiles {as bs : List (String × Structure)} {here there : String}
    (ha : (as.map Prod.fst).Nodup) (hb : (bs.map Prod.fst).Nodup)
    (scoped_ : fileScoped (ofFiles here as) (ofFiles there bs) = true) {category : Category}
    (h : category ≠ .importDecl) (file : String) :
    (((ofFiles here as).diff (ofFiles there bs)).detail.get category).filter
        (fun record => record.element.file = some file) =
      (((fileAt as file).tagged file).diff ((fileAt bs file).tagged file)).detail.get category := by
  have one_file : ∀ element ∈ ((fileAt as file).tagged file).elements category ++
      ((fileAt bs file).tagged file).elements category, element.file = some file := by
    intro element he
    rw [Structure.elements_tagged, Structure.elements_tagged, ← List.map_append] at he
    obtain ⟨original, -, rfl⟩ := List.mem_map.1 he
    rfl
  rw [get_detail_diff, get_detail_diff, scoped_, filter_file_diffCategory h,
    Structure.filter_elements_ofFiles ha, Structure.filter_elements_ofFiles hb]
  exact diffCategory_of_one_file one_file _ _

/-- Every record of a directory comparison carries the tag of a gathered file. -/
theorem exists_file_of_mem_detail {as bs : List (String × Structure)} {here there : String}
    {category : Category} {record : Record}
    (h : record ∈ ((ofFiles here as).diff (ofFiles there bs)).detail.get category) :
    ∃ file ∈ as.map Prod.fst ++ bs.map Prod.fst, record.element.file = some file := by
  rw [get_detail_diff] at h
  rcases mem_of_mem_diffCategory h with he | he
  · obtain ⟨file, hf, same⟩ := Structure.exists_file_of_mem_ofFiles he
    exact ⟨file, List.mem_append_left _ hf, same⟩
  · obtain ⟨file, hf, same⟩ := Structure.exists_file_of_mem_ofFiles he
    exact ⟨file, List.mem_append_right _ hf, same⟩

/-- A list whose members carry tags from a list without repetition is as long as its parts by tag
are together. -/
theorem sum_length_filter_tag {α : Type} (tag : α → Option String) (tags : List String)
    (distinct : tags.Nodup) (xs : List α) (h : ∀ x ∈ xs, ∃ t ∈ tags, tag x = some t) :
    (tags.map fun t => (xs.filter fun x => tag x = some t).length).sum = xs.length := by
  induction tags generalizing xs with
  | nil =>
    have none_left : xs = [] := by
      rw [List.eq_nil_iff_forall_not_mem]
      intro x hx
      obtain ⟨t, ht, -⟩ := h x hx
      exact List.not_mem_nil ht
    rw [none_left]
    rfl
  | cons first rest ih =>
    rw [List.nodup_cons] at distinct
    -- The members under later tags are those that are not under the first one.
    have others := ih distinct.2 (xs.filter fun x => ¬tag x = some first) (by
      intro x hx
      obtain ⟨hx, other⟩ := List.mem_filter.1 hx
      obtain ⟨t, ht, same⟩ := h x hx
      rcases List.mem_cons.1 ht with rfl | ht
      · exact absurd same (of_decide_eq_true other)
      · exact ⟨t, ht, same⟩)
    have later : ∀ t ∈ rest, ((xs.filter fun x => ¬tag x = some first).filter
        fun x => tag x = some t) = xs.filter fun x => tag x = some t := by
      intro t ht
      rw [List.filter_filter]
      refine List.filter_congr fun x _ => ?_
      by_cases same : tag x = some t
      · have differs : t ≠ first := by
          rintro rfl
          exact distinct.1 ht
        simp [same, differs]
      · simp [same]
    have split : (xs.filter fun x => tag x = some first).length +
        (xs.filter fun x => ¬tag x = some first).length = xs.length := by
      have parts := xs.length_eq_length_filter_add fun x => decide (tag x = some first)
      simpa using parts.symm
    rw [List.map_cons, List.sum_cons, ← split, ← others]
    congr 2
    exact List.map_congr_left fun t ht => by rw [later t ht]

/-- The comparison of two directories that hold an element each is, in functions and classes, the
comparison of their files: under every tag stand the records of the two files of that path, in
order, with an empty file in the place of one that a side lacks; there is no record without the
tag of a gathered file; and the counts are the sums of the files' counts. -/
theorem diff_ofFiles (here there : String) (as bs : List (String × Structure))
    (ha : (as.map Prod.fst).Nodup) (hb : (bs.map Prod.fst).Nodup)
    (some_a : (ofFiles here as).elementCount ≠ 0) (some_b : (ofFiles there bs).elementCount ≠ 0)
    (category : Category) (hc : category = .function ∨ category = .classDef) :
    (∀ file, (((ofFiles here as).diff (ofFiles there bs)).detail.get category).filter
        (fun record => record.element.file = some file) =
      (((fileAt as file).tagged file).diff ((fileAt bs file).tagged file)).detail.get category) ∧
    (∀ record ∈ ((ofFiles here as).diff (ofFiles there bs)).detail.get category,
      ∃ file ∈ as.map Prod.fst ++ bs.map Prod.fst, record.element.file = some file) ∧
    ∀ kind, (((ofFiles here as).diff (ofFiles there bs)).summary.get category).get kind =
      ((as.map Prod.fst ++ bs.map Prod.fst).dedup.map fun file =>
        ((((fileAt as file).tagged file).diff ((fileAt bs file).tagged file)).summary.get
          category).get kind).sum := by
  have noImport : category ≠ .importDecl := by
    rintro rfl
    rcases hc with h | h
    · exact Category.noConfusion h
    · exact Category.noConfusion h
  have both : fileScoped (ofFiles here as) (ofFiles there bs) = true := by
    unfold fileScoped
    rw [(Structure.isFileTagged_iff _).2 (Structure.hasFileTag_ofFiles some_a),
      (Structure.isFileTagged_iff _).2 (Structure.hasFileTag_ofFiles some_b), Bool.and_self]
  have parts := fun file => filter_detail_ofFiles ha hb both noImport file
  refine ⟨parts, fun record h => exists_file_of_mem_detail h, fun kind => ?_⟩
  rw [get_summary_diff]
  have tags : ∀ record ∈ ofKind kind
      (((ofFiles here as).diff (ofFiles there bs)).detail.get category),
      ∃ file ∈ (as.map Prod.fst ++ bs.map Prod.fst).dedup, record.element.file = some file := by
    intro record h
    obtain ⟨file, hf, same⟩ := exists_file_of_mem_detail (List.mem_of_mem_filter h)
    exact ⟨file, List.mem_dedup.2 hf, same⟩
  rw [← sum_length_filter_tag (fun record => record.element.file) _ (List.nodup_dedup _) _ tags]
  refine congrArg List.sum (List.map_congr_left fun file _ => ?_)
  rw [get_summary_diff, ← parts file]
  unfold ofKind
  rw [List.filter_filter, List.filter_filter]
  simp only [Bool.and_comm]

/-- Two files before a change. -/
def filesBefore : List (String × Structure) :=
  [("a.py", { Structure.blank with functions := [.named "run"] }),
    ("b.py", { Structure.blank with functions := [{ Element.named "run" with line := some 1 }] })]

/-- The files after it: the first one is gone, the second one changed, and a third one is new. -/
def filesAfter : List (String × Structure) :=
  [("b.py", { Structure.blank with
      functions := [.named "run", { Element.named "run" with line := some 4 }] }),
    ("c.py", { Structure.blank with functions := [.named "run"] })]

/-- A name that three files share is compared within each of them. -/
theorem diff_ofFiles_shared_name :
    (filesBefore.map Prod.fst).Nodup ∧ (filesAfter.map Prod.fst).Nodup ∧
    (ofFiles "old" filesBefore).elementCount ≠ 0 ∧
    (ofFiles "new" filesAfter).elementCount ≠ 0 ∧
    (((ofFiles "old" filesBefore).diff (ofFiles "new" filesAfter)).detail.get .function).filter
        (fun record => record.element.file = some "b.py") =
      (((fileAt filesBefore "b.py").tagged "b.py").diff
        ((fileAt filesAfter "b.py").tagged "b.py")).detail.get .function ∧
    ((((fileAt filesBefore "b.py").tagged "b.py").diff
        ((fileAt filesAfter "b.py").tagged "b.py")).detail.get .function).map Record.kind =
      [.modified] ∧
    (((ofFiles "old" filesBefore).diff (ofFiles "new" filesAfter)).summary.get .function).get
      .added = 1 := by
  have distinct : (filesBefore.map Prod.fst).Nodup ∧ (filesAfter.map Prod.fst).Nodup := by decide
  have some_before : (ofFiles "old" filesBefore).elementCount ≠ 0 := by decide
  have some_after : (ofFiles "new" filesAfter).elementCount ≠ 0 := by decide
  obtain ⟨parts, -, counts⟩ := diff_ofFiles "old" "new" filesBefore filesAfter distinct.1
    distinct.2 some_before some_after .function (Or.inl rfl)
  refine ⟨distinct.1, distinct.2, some_before, some_after, parts "b.py", by decide, ?_⟩
  rw [counts .added]
  decide

end CodeDelta
