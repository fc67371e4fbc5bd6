import CodeDelta.Proofs.Diff.EmptySide
import CodeDelta.Proofs.Diff.FileOrder
import CodeDelta.Resolve.Directory

/-!
# Gathered outcomes

A directory's structure is that of the files that could be read, with the number of the others
(`gather_eq`). It does not depend on the names the files were analyzed under, and neither a
comparison nor the two numbers depend on the order of the files: `gather_agree` compares the
structures of two lists of outcomes that are the same but for that.
-/

namespace CodeDelta

namespace Structure

/-- The structure without the name of what it describes. -/
def unnamed (structure_ : Structure) : Structure := { structure_ with path := none }

/-- Gathering files does not look at the number of those that could not be read. -/
theorem foldl_absorb_skipped (skipped : ℕ) (files : List (String × Structure))
    (whole : Structure) :
    files.foldl (fun whole file => whole.absorb file.1 file.2)
        { whole with skippedFiles := skipped } =
      { files.foldl (fun whole file => whole.absorb file.1 file.2) whole with
        skippedFiles := skipped } := by
  induction files generalizing whole with
  | nil => rfl
  | cons file rest ih => exact ih (whole.absorb file.1 file.2)

/-- Gathered files are counted. -/
theorem fileCount_ofFiles (path : String) (files : List (String × Structure)) :
    (ofFiles path files).fileCount = some files.length := by
  have from_whole : ∀ (whole : Structure) (count : ℕ), whole.fileCount = some count →
      (files.foldl (fun whole file => whole.absorb file.1 file.2) whole).fileCount =
        some (count + files.length) := by
    induction files with
    | nil => exact fun whole count h => h
    | cons file rest ih =>
      intro whole count h
      have next : (whole.absorb file.1 file.2).fileCount = some (count + 1) := by
        unfold absorb
        rw [h]
        rfl
      rw [List.foldl_cons, ih _ _ next, List.length_cons, Nat.add_right_comm, Nat.add_assoc]
  have counted := from_whole (ofDirectory path) 0 rfl
  rw [Nat.zero_add] at counted
  exact counted

/-- Gathered files leave what is said of the directory itself. -/
theorem description_ofFiles (path : String) (files : List (String × Structure)) :
    (ofFiles path files).kind = .directory ∧ (ofFiles path files).path = some path ∧
      (ofFiles path files).language = none := by
  have from_whole : ∀ whole : Structure,
      let gathered := files.foldl (fun whole file => whole.absorb file.1 file.2) whole
      gathered.kind = whole.kind ∧ gathered.path = whole.path ∧
        gathered.language = whole.language := by
    induction files with
    | nil => exact fun whole => ⟨rfl, rfl, rfl⟩
    | cons file rest ih => exact fun whole => ih (whole.absorb file.1 file.2)
  exact from_whole (ofDirectory path)

/-- A directory says where its elements come from as soon as it lists one. -/
theorem isFileTagged_ofFiles_iff (path : String) (files : List (String × Structure)) :
    (ofFiles path files).isFileTagged = true ↔ (ofFiles path files).elementCount ≠ 0 := by
  rw [isFileTagged_iff]
  exact ⟨fun tagged empty => not_hasFileTag empty tagged, hasFileTag_ofFiles⟩

/-- A directory lists the same elements when its files have no names. -/
theorem elements_ofFiles_unnamed (path : String) (files : List (String × Structure))
    (category : Category) :
    (ofFiles path (files.map fun file => (file.1, file.2.unnamed))).elements category =
      (ofFiles path files).elements category := by
  rw [elements_ofFiles, elements_ofFiles, List.flatMap_map]
  refine congrArg List.flatten (List.map_congr_left fun file _ => ?_)
  cases category <;> rfl

end Structure

namespace Resolve

open Structure (ofFiles)

/-- The files that could be read, under their tags. -/
def readable (outcomes : List (String × Except Failure Structure)) : List (String × Structure) :=
  outcomes.filterMap fun outcome => outcome.2.toOption.map fun part => (outcome.1, part)

/-- The tags of the files that could be read are among those of all. -/
theorem readable_tags_sublist (outcomes : List (String × Except Failure Structure)) :
    ((readable outcomes).map Prod.fst).Sublist (outcomes.map Prod.fst) := by
  induction outcomes with
  | nil => exact List.Sublist.slnil
  | cons outcome rest ih =>
    obtain ⟨tag, result⟩ := outcome
    cases result with
    | ok part => exact ih.cons_cons tag
    | error failure => exact ih.cons tag

/-- As many structures are gathered as files could be read. -/
theorem length_readable (outcomes : List (String × Except Failure Structure)) :
    (readable outcomes).length = outcomes.countP fun outcome => outcome.2.toOption.isSome := by
  unfold readable
  rw [List.length_filterMap_eq_countP]
  refine List.countP_congr fun outcome _ => ?_
  rw [Option.isSome_map]

/-- The number of files that could not be read. -/
def failures (outcomes : List (String × Except Failure Structure)) : ℕ :=
  outcomes.countP fun outcome => outcome.2.toOption.isNone

/-- A directory's structure is that of the files that could be read; the others are counted. -/
theorem gather_eq (path : String) (outcomes : List (String × Except Failure Structure)) :
    gather path outcomes =
      { ofFiles path (readable outcomes) with skippedFiles := failures outcomes } := by
  -- Proved from any structure to start with, as the fold goes on from what is there.
  have from_whole : ∀ whole : Structure,
      outcomes.foldl (fun whole outcome => whole.absorbOutcome outcome.1 outcome.2) whole =
        { (readable outcomes).foldl (fun whole file => whole.absorb file.1 file.2) whole with
          skippedFiles := whole.skippedFiles + failures outcomes } := by
    induction outcomes with
    | nil => exact fun whole => rfl
    | cons outcome rest ih =>
      intro whole
      obtain ⟨tag, result⟩ := outcome
      rw [List.foldl_cons, ih]
      cases result with
      | ok part =>
        have read : readable ((tag, .ok part) :: rest) = (tag, part) :: readable rest := rfl
        have failed : failures ((tag, .ok part) :: rest) = failures rest :=
          List.countP_cons_of_neg Bool.false_ne_true
        rw [read, failed]
        rfl
      | error failure =>
        have read : readable ((tag, .error failure) :: rest) = readable rest := rfl
        have failed : failures ((tag, .error failure) :: rest) = failures rest + 1 :=
          List.countP_cons_of_pos rfl
        unfold Structure.absorbOutcome
        rw [read, failed, Structure.foldl_absorb_skipped]
        dsimp only
        rw [Nat.add_assoc, Nat.add_comm 1]
  unfold gather ofFiles
  rw [from_whole]
  have start : (Structure.ofDirectory path).skippedFiles = 0 := rfl
  rw [start, Nat.zero_add]

/-- What outcomes hold besides the names that their files were analyzed under. -/
def contents (outcomes : List (String × Except Failure Structure)) :
    List (String × Option Structure) :=
  outcomes.map fun outcome => (outcome.1, outcome.2.toOption.map Structure.unnamed)

/-- The files that could be read, without their names. -/
def unnamedFiles (contents : List (String × Option Structure)) : List (String × Structure) :=
  contents.filterMap fun content => content.2.map fun part => (content.1, part)

/-- The files that could be read lose their names. -/
theorem unnamedFiles_contents (outcomes : List (String × Except Failure Structure)) :
    unnamedFiles (contents outcomes) =
      (readable outcomes).map fun file => (file.1, file.2.unnamed) := by
  unfold unnamedFiles contents readable
  rw [List.filterMap_map, List.map_filterMap]
  refine List.filterMap_congr fun outcome _ => ?_
  dsimp only [Function.comp_apply]
  cases outcome.2.toOption <;> rfl

/-- A directory lists the elements of the files that could be read. -/
theorem elements_gather (path : String) (outcomes : List (String × Except Failure Structure))
    (category : Category) :
    (gather path outcomes).elements category =
      (ofFiles path (unnamedFiles (contents outcomes))).elements category := by
  rw [unnamedFiles_contents, Structure.elements_ofFiles_unnamed, gather_eq]
  cases category <;> rfl

/-- A directory counts the files that could be read. -/
theorem fileCount_gather (path : String) (outcomes : List (String × Except Failure Structure)) :
    (gather path outcomes).fileCount = some (unnamedFiles (contents outcomes)).length := by
  rw [unnamedFiles_contents, List.length_map, gather_eq]
  exact Structure.fileCount_ofFiles path (readable outcomes)

/-- A directory counts the files that could not be read. -/
theorem skippedFiles_gather (path : String) (outcomes : List (String × Except Failure Structure)) :
    (gather path outcomes).skippedFiles =
      (contents outcomes).countP fun content => content.2.isNone := by
  rw [gather_eq]
  unfold failures contents
  rw [List.countP_map]
  refine List.countP_congr fun outcome _ => ?_
  dsimp only [Function.comp_apply]
  rw [Option.isNone_map]

/-- Every outcome is counted, as a file that was gathered or as one that could not be read. -/
theorem length_gather (path : String) (outcomes : List (String × Except Failure Structure)) :
    (gather path outcomes).fileCount.getD 0 + (gather path outcomes).skippedFiles =
      outcomes.length := by
  have both : (readable outcomes).length + failures outcomes = outcomes.length := by
    unfold failures
    rw [length_readable, List.length_eq_countP_add_countP fun outcome =>
      outcome.2.toOption.isSome]
    congr 1
    refine List.countP_congr fun outcome _ => ?_
    cases outcome.2.toOption <;> simp
  rw [gather_eq]
  dsimp only
  rw [Structure.fileCount_ofFiles, Option.getD_some, both]

/-- A file that could not be read leaves no structure to gather. -/
theorem readable_filter_isSome (outcomes : List (String × Except Failure Structure)) :
    readable (outcomes.filter fun outcome => outcome.2.toOption.isSome) = readable outcomes := by
  unfold readable
  rw [List.filterMap_filter]
  refine List.filterMap_congr fun outcome _ => ?_
  cases outcome.2 <;> rfl

/-- No failure is left when the files that could not be read are. -/
theorem failures_filter_isSome (outcomes : List (String × Except Failure Structure)) :
    failures (outcomes.filter fun outcome => outcome.2.toOption.isSome) = 0 := by
  unfold failures
  rw [List.countP_eq_zero]
  intro outcome kept failed
  have read := (List.mem_filter.1 kept).2
  rw [Option.isNone_iff_eq_none.1 failed] at read
  exact absurd read Bool.false_ne_true

/-- The account of a directory. It counts the files that could be read and those that could not;
it lists the elements of the former, file by file, which are as they were but for the tag of their
file; what is said of the directory itself stays; it is tagged as soon as it has an element; and
without the files that could not be read it would be the same but for their number. -/
theorem gather_account (path : String) (outcomes : List (String × Except Failure Structure)) :
    (gather path outcomes).fileCount =
      some (outcomes.countP fun outcome => outcome.2.toOption.isSome) ∧
    (gather path outcomes).skippedFiles =
      outcomes.countP (fun outcome => outcome.2.toOption.isNone) ∧
    (∀ category, (gather path outcomes).elements category =
      (readable outcomes).flatMap fun file =>
        (file.2.elements category).map fun element => { element with file := some file.1 }) ∧
    ((gather path outcomes).kind = .directory ∧ (gather path outcomes).path = some path ∧
      (gather path outcomes).language = none) ∧
    ((gather path outcomes).isFileTagged = true ↔ (gather path outcomes).elementCount ≠ 0) ∧
    gather path (outcomes.filter fun outcome => outcome.2.toOption.isSome) =
      { gather path outcomes with skippedFiles := 0 } := by
  have counted : (ofFiles path (readable outcomes)).fileCount =
      some (outcomes.countP fun outcome => outcome.2.toOption.isSome) := by
    rw [Structure.fileCount_ofFiles, length_readable]
  have listed : ∀ category, (ofFiles path (readable outcomes)).elements category =
      (readable outcomes).flatMap fun file =>
        (file.2.elements category).map fun element => { element with file := some file.1 } := by
    intro category
    have tagged := Structure.elements_ofFiles path (readable outcomes) category
    simp only [Structure.elements_tagged] at tagged
    exact tagged
  -- Without the failures there are the same files to gather and none to count.
  have alone : gather path (outcomes.filter fun outcome => outcome.2.toOption.isSome) =
      { ofFiles path (readable outcomes) with skippedFiles := 0 } := by
    rw [gather_eq, readable_filter_isSome, failures_filter_isSome]
  rw [alone, gather_eq]
  refine ⟨counted, rfl, fun category => ?_, ?_, ?_, rfl⟩
  · cases category with
    | function => exact listed .function
    | classDef => exact listed .classDef
    | importDecl => exact listed .importDecl
  · exact Structure.description_ofFiles path (readable outcomes)
  · exact Structure.isFileTagged_ofFiles_iff path (readable outcomes)

/-- Outcomes with the same contents, in any order and each under a tag of its own, are gathered to
structures with the same numbers, which compare as equal either way. -/
theorem gather_agree {here there : String} {as bs : List (String × Except Failure Structure)}
    (h : (contents as).Perm (contents bs)) (distinct : (as.map Prod.fst).Nodup) :
    (gather here as).fileCount = (gather there bs).fileCount ∧
    (gather here as).skippedFiles = (gather there bs).skippedFiles ∧
    (gather here as).diff (gather there bs) = ⟨.zero, ⟨[], [], []⟩⟩ ∧
    (gather there bs).diff (gather here as) = ⟨.zero, ⟨[], [], []⟩⟩ := by
  have files : (unnamedFiles (contents as)).Perm (unnamedFiles (contents bs)) := h.filterMap _
  have tags : ((unnamedFiles (contents as)).map Prod.fst).Nodup := by
    rw [unnamedFiles_contents, List.map_map]
    exact (readable_tags_sublist as).nodup distinct
  refine ⟨?_, ?_, ?_, ?_⟩
  · rw [fileCount_gather, fileCount_gather, files.length_eq]
  · rw [skippedFiles_gather, skippedFiles_gather, h.countP_eq]
  · rw [diff_congr (elements_gather here as) (elements_gather there bs)]
    exact diff_of_perm here there files tags
  · rw [diff_congr (elements_gather there bs) (elements_gather here as)]
    exact diff_of_perm there here files.symm ((files.map Prod.fst).nodup tags)

end Resolve

end CodeDelta
