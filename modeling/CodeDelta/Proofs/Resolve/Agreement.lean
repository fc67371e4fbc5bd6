import CodeDelta.Proofs.Files.Workspace
import CodeDelta.Proofs.Resolve.Gather
import CodeDelta.Proofs.Resolve.Recorded
import CodeDelta.Registry.Builtin

/-!
# History and work tree

A tree that is committed at a revision and checked out somewhere can be resolved in two ways, by the
names git lists and by a walk. Both hand the same files to the same analyzers (`asRecorded?_input`),
and as long as these read nothing but the content (`Analyzer.ReadsContentOnly`), both get the same
from them (`asRecorded?_content`) and gather structures that compare as equal. Git's order of full
paths is not the walk's order of siblings, so the two lists of files are the same up to order.
-/

namespace CodeDelta

/-- Whether the outcome of an analysis depends on the content of the file only, apart from the name
in the structure and whatever a failure says. -/
def Analyzer.ReadsContentOnly (analyzer : Analyzer) : Prop :=
  ∀ (here there : String) (content : List UInt8),
    (analyzer.analyze here content).toOption.map Structure.unnamed =
      (analyzer.analyze there content).toOption.map Structure.unnamed

/-- A source file's outline is that of its content. -/
theorem Language.analyze_unnamed (language : Language) (here there : String)
    (content : List UInt8) :
    (language.analyze here content).toOption.map Structure.unnamed =
      (language.analyze there content).toOption.map Structure.unnamed := by
  unfold Language.analyze
  cases Text.decodeUtf8 content with
  | error fault => rfl
  | ok source => cases language <;> rfl

/-- The analyzers at hand read nothing but the content. -/
theorem Registry.builtin_readsContentOnly :
    ∀ analyzer ∈ Registry.builtin.analyzers, analyzer.ReadsContentOnly := by
  have analyzers : Registry.builtin.analyzers = [.python, .rust] := rfl
  rw [analyzers]
  intro analyzer h
  rcases List.mem_cons.1 h with rfl | h
  · exact Language.python.analyze_unnamed
  · obtain rfl := List.mem_singleton.1 h
    exact Language.rust.analyze_unnamed

namespace Resolve

/-- What a task gives to an analyzer, whatever the path. -/
def Task.input (task : Task) : Analyzer × List UInt8 := (task.analyzer, task.content)

/-- The analyzer that takes a file is a registered one. -/
theorem mem_of_taker? {found : Found} {registry : Registry} {analyzer : Analyzer}
    (h : found.taker? registry = some analyzer) : analyzer ∈ registry.analyzers := by
  have at_position : ∀ position : Option ℕ,
      (position.bind fun position => registry.analyzers[position]?) = some analyzer →
        analyzer ∈ registry.analyzers := by
    intro position h
    obtain ⟨index, -, stands⟩ := Option.bind_eq_some_iff.1 h
    exact List.mem_of_getElem? stands
  unfold Found.taker? Registry.analyzerOfContent? at h
  cases ext : found.names.getLast?.bind Path.nameExtension? with
  | some extension =>
    rw [ext] at h
    exact at_position _ h
  | none =>
    rw [ext] at h
    obtain ⟨interpreter, -, stands⟩ := Option.bind_eq_some_iff.1 h
    exact at_position _ stands

section

variable {registry : Registry} {revision directory path : String}

/-- A recorded file and its live counterpart are analyzed by the same analyzer. -/
theorem asRecorded?_input (found : Found) :
    ((asRecorded? registry revision directory found).map fun file =>
        (file.tag, file.task.map Task.input)) =
      (liveTask? registry path found).map fun task => (task.1, .ok task.2.input) := by
  unfold asRecorded? liveTask?
  cases found.taker? registry <;> rfl

/-- What a recorded file holds is what its live counterpart holds. -/
theorem asRecorded?_content (byContent : ∀ analyzer ∈ registry.analyzers, analyzer.ReadsContentOnly)
    (found : Found) :
    ((asRecorded? registry revision directory found).map fun file =>
        (file.tag, file.outcome.toOption.map Structure.unnamed)) =
      (liveTask? registry path found).map fun task =>
        (task.1, task.2.outcome.toOption.map Structure.unnamed) := by
  unfold asRecorded? liveTask?
  cases taken : found.taker? registry with
  | none => rfl
  | some analyzer =>
    have same := byContent analyzer (mem_of_taker? taken)
      (temporaryPath (leadOf directory ++ found.tag)) (path ++ "/" ++ found.tag) found.content
    -- A failure is said of another file, which is not seen in the contents.
    have relabeled : ∀ (label : String) (outcome : Except Failure Structure),
        (outcome.mapError (relabel label)).toOption = outcome.toOption := by
      intro label outcome
      cases outcome <;> rfl
    simp only [Option.map_some, RecordedFile.outcome, Except.bind, Task.recordedOutcome,
      Task.outcome, relabeled, same]

/-- A recorded file has the tag of the file that was found. -/
theorem tag_of_asRecorded? {found : Found} {file : RecordedFile}
    (h : asRecorded? registry revision directory found = some file) : file.tag = found.tag := by
  obtain ⟨analyzer, -, rfl⟩ := Option.map_eq_some_iff.1 h
  rfl

/-- Recorded files have tags of their own when the files that were found do. -/
theorem nodup_recorded_tags {files : List Found} (h : (files.map Found.tag).Nodup) :
    ((files.filterMap (asRecorded? registry revision directory)).map RecordedFile.tag).Nodup := by
  unfold List.Nodup at h ⊢
  rw [List.pairwise_map] at h ⊢
  rw [List.pairwise_filterMap]
  refine h.imp fun differ file hf other ho => ?_
  rw [tag_of_asRecorded? hf, tag_of_asRecorded? ho]
  exact differ

end

/-- A tree that is committed at a revision and checked out as it stands is resolved alike in both
places: the same files go to the same analyzers, as many are gathered and as many counted as
unreadable, and a comparison of the two structures, either way, finds nothing. -/
theorem recordedDirectory_agree {registry : Registry} {options : Options} {space : Workspace}
    {checkout : Git.Checkout} {answer : String → String → Git.Query → Git.Reply}
    {revision directory label path : String} {tree : List (String × FileTree)}
    (own : ".git" ∈ options.skipped) (free : options.respectIgnoreFiles = false)
    (byContent : ∀ analyzer ∈ registry.analyzers, analyzer.ReadsContentOnly)
    (regular : AreRegular tree) (out : CheckedOut space path tree)
    (committed : Committed answer checkout revision directory tree) :
    ∃ (files : List RecordedFile) (recorded : Structure),
      Git.Session.outcome answer (recordedBelow registry options checkout revision directory) =
        .ok files ∧
      (files.map fun file => (file.tag, file.task.map Task.input)).Perm
        ((tasksBelow registry options space path).map fun task => (task.1, .ok task.2.input)) ∧
      Git.Session.outcome answer
          (recordedDirectory registry options checkout revision directory label) = .ok recorded ∧
      recorded.fileCount = (Resolve.directory registry options space path).fileCount ∧
      recorded.skippedFiles = (Resolve.directory registry options space path).skippedFiles ∧
      recorded.diff (Resolve.directory registry options space path) = ⟨.zero, ⟨[], [], []⟩⟩ ∧
      (Resolve.directory registry options space path).diff recorded = ⟨.zero, ⟨[], [], []⟩⟩ := by
  obtain ⟨order, same, listed⟩ :=
    @outcome_recordedBelow _ _ registry options revision directory tree regular committed
  have live := @tasksBelow_eq registry options space path tree own free out
  -- The recorded files and the live ones are images of one list, taken in two orders.
  have outside : (order.filter (Found.isOutside options.skipped)).Perm
      ((filesAmong tree).filter (Found.isOutside options.skipped)) := same.filter _
  generalize found : (order.filter (Found.isOutside options.skipped)).filterMap
    (asRecorded? registry revision directory) = files at listed
  have whole : Git.Session.outcome answer
      (recordedDirectory registry options checkout revision directory label) =
        .ok (gather label (files.map fun file => (file.tag, file.outcome))) := by
    unfold recordedDirectory
    rw [Git.Session.outcome_bind, listed]
    rfl
  have distinct : ((files.map fun file => (file.tag, file.outcome)).map Prod.fst).Nodup := by
    rw [List.map_map, ← found]
    refine nodup_recorded_tags ?_
    have tags : (order.map Found.tag).Nodup := (same.map _).nodup_iff.2 (nodup_tags regular)
    exact (List.filter_sublist.map Found.tag).nodup tags
  have held : (contents (files.map fun file => (file.tag, file.outcome))).Perm
      (contents ((tasksBelow registry options space path).map fun task =>
        (task.1, task.2.outcome))) := by
    unfold contents
    rw [live, ← found, List.map_map, List.map_map, List.map_filterMap, List.map_filterMap]
    exact (List.Perm.of_eq (List.filterMap_congr fun found _ =>
      asRecorded?_content byContent found)).trans (outside.filterMap _)
  have numbers := @gather_agree label path _ _ held distinct
  refine ⟨files, _, listed, ?_, whole, numbers⟩
  rw [live, ← found, List.map_filterMap, List.map_filterMap]
  exact (List.Perm.of_eq (List.filterMap_congr fun found _ =>
    asRecorded?_input found)).trans (outside.filterMap _)

/-- The files of a work tree, one of them in a skipped directory and one that names its
interpreter. -/
def sampleTree : List (String × FileTree) :=
  [("a", .directory [("b.py", .file (Text.encodeUtf8 "def f(): pass\n".toList))]),
    ("a-c.rs", .file (Text.encodeUtf8 "fn f() \x7b\x7d\n".toList)),
    ("build", .directory [("out.py", .file [])]),
    ("run", .file (Text.encodeUtf8 "#!/usr/bin/python\n".toList))]

/-- The same files in the order of their full paths. -/
def sampleOrder : List Found :=
  [⟨["a-c.rs"], Text.encodeUtf8 "fn f() \x7b\x7d\n".toList⟩,
    ⟨["a", "b.py"], Text.encodeUtf8 "def f(): pass\n".toList⟩, ⟨["build", "out.py"], []⟩,
    ⟨["run"], Text.encodeUtf8 "#!/usr/bin/python\n".toList⟩]

/-- A disk with the work tree. -/
def sampleSpace : Workspace :=
  ⟨.directory [("work", .directory ((".git", .empty) :: sampleTree))], [], []⟩

/-- A repository with one commit, which keeps the files. -/
def sampleRepository : Git.Repository where
  root := ["work"]
  commits := [⟨[], sampleOrder.map fun found => (found.tag, .regular false found.content)⟩]
  references := [("refs/heads/main", 0)]
  head := "refs/heads/main"

/-- The path of the work tree is its own canonical form. -/
theorem canonical?_sampleSpace : sampleSpace.canonical? "/work" = some ["work"] :=
  @Workspace.canonical?_of_descend? sampleSpace
    (.directory ((".git", .empty) :: sampleTree)) ["work"] (by decide) (by decide) rfl
    fun _ => FileTree.noConfusion

/-- The repository's work tree is the one at hand. -/
theorem topLevel?_sampleRepository :
    sampleRepository.topLevel? sampleSpace "/work" = some ["work"] := by
  unfold Git.Repository.topLevel?
  rw [canonical?_sampleSpace]
  rfl

/-- The repository answers that its commit keeps the files. -/
theorem committed_sampleTree :
    Committed (fun _ => sampleRepository.reply sampleSpace) ⟨"git", "/work"⟩ "HEAD" ""
      sampleTree where
  asked := by decide
  listed := by
    refine ⟨sampleOrder, [], by decide, ?_⟩
    unfold Git.Repository.reply
    rw [topLevel?_sampleRepository]
    rfl
  kept := by
    have replies : ∀ found ∈ filesAmong sampleTree,
        sampleRepository.reply sampleSpace "/work" (.blob "HEAD" (leadOf "" ++ found.tag)) =
          .ended 0 found.content [] := by
      unfold Git.Repository.reply
      rw [topLevel?_sampleRepository]
      decide
    exact fun found h => ⟨[], replies found h⟩

/-- The two orders of a small work tree differ, and its structures do not. -/
theorem recordedDirectory_agree_sample :
    sampleOrder ≠ filesAmong sampleTree ∧
    ((tasksBelow .builtin .standard sampleSpace "/work").map Prod.fst =
      ["a/b.py", "a-c.rs", "run"]) ∧
    ∃ recorded, Git.Session.outcome (fun _ => sampleRepository.reply sampleSpace)
        (recordedDirectory .builtin .standard ⟨"git", "/work"⟩ "HEAD" "" "/work@HEAD") =
          .ok recorded ∧
      recorded.fileCount = (Resolve.directory .builtin .standard sampleSpace "/work").fileCount ∧
      recorded.diff (Resolve.directory .builtin .standard sampleSpace "/work") =
        ⟨.zero, ⟨[], [], []⟩⟩ := by
  have own : ".git" ∈ Options.standard.skipped := by decide
  have regular : AreRegular sampleTree :=
    ⟨by decide, by decide, ⟨by decide, by decide, trivial, trivial⟩, by decide, by decide, trivial,
      by decide, by decide, ⟨by decide, by decide, trivial, trivial⟩, by decide, by decide, trivial,
      trivial⟩
  have out : CheckedOut sampleSpace "/work" sampleTree := by
    refine ⟨["work"], (".git", .empty) :: sampleTree, canonical?_sampleSpace, rfl, rfl, ?_⟩
    intro node h
    rcases List.mem_cons.1 h with same | other
    · rw [(Prod.mk.inj same).2]
      trivial
    · have listed : ".git" ∈ sampleTree.map Prod.fst := List.mem_map.2 ⟨_, other, rfl⟩
      exact absurd listed (by decide)
  obtain ⟨files, recorded, -, -, resolved, counts, -, equal, -⟩ :=
    @recordedDirectory_agree .builtin .standard sampleSpace ⟨"git", "/work"⟩
      (fun _ => sampleRepository.reply sampleSpace) "HEAD" "" "/work@HEAD" "/work" sampleTree
      own rfl Registry.builtin_readsContentOnly regular out committed_sampleTree
  refine ⟨by decide, ?_, recorded, resolved, counts, equal⟩
  rw [tasksBelow_eq own rfl out]
  rfl

end Resolve

end CodeDelta
