import CodeDelta.Proofs.Resolve.Agreement

/-!
# Links and submodules of a revision

Git lists links and submodules among the files of a revision by their names alone, hands out a
link's target as if it were a content, and nothing for a submodule. A directory at a revision is
gathered from such a listing without a look at the kinds of its entries
(`outcome_recordedBelow_entries`): a link is taken for a file that holds its target, and a submodule
for a file that cannot be read. They make no difference exactly when they are passed over for
another reason (`IsPassedOver`): they stand in a skipped directory, or no analyzer takes a file of
their name. What git answers is a hypothesis (`Holds`), which a repository of one commit meets
(`holds_repositoryOf`).
-/

namespace CodeDelta

/-- Whether an entry of a tree is a regular file. -/
def Git.TreeFile.isRegular : Git.TreeFile → Bool
  | regular _ _ => true
  | link _ | submodule => false

/-- A content is kept of a regular file. -/
theorem Git.TreeFile.content?_of_isRegular {file : Git.TreeFile} (h : file.isRegular = true) :
    ∃ content, file.content? = some content := by
  cases file with
  | regular executable content => exact ⟨content, rfl⟩
  | link target => exact absurd h Bool.false_ne_true
  | submodule => exact absurd h Bool.false_ne_true

namespace Resolve

/-- Whether git answers that a directory of a revision holds these entries, given by their paths
below the directory: it lists all of them, hands out the content of a regular file and the target of
a link, and fails on a submodule. -/
structure Holds (answer : String → String → Git.Query → Git.Reply) (checkout : Git.Checkout)
    (revision directory : String) (entries : List (String × Git.TreeFile)) : Prop where
  /-- The question can be put. -/
  asked : (Git.Query.files revision directory).startFault? = none
  /-- Git's paths are not empty and hold no zero. -/
  named : ∀ entry ∈ entries, entry.1 ≠ "" ∧ Char.ofNat 0 ∉ entry.1.toList
  /-- The listing. -/
  listed : ∃ errors : List UInt8,
    answer checkout.program checkout.root (.files revision directory) =
      .ended 0 (Git.listing (entries.map fun entry => (leadOf directory ++ entry.1).toList)) errors
  /-- The contents and targets. -/
  kept : ∀ entry ∈ entries, ∀ content, entry.2.content? = some content →
    ∃ errors : List UInt8,
      answer checkout.program checkout.root (.blob revision (leadOf directory ++ entry.1)) =
        .ended 0 content errors
  /-- Nothing is kept of a submodule. -/
  refused : ∀ entry ∈ entries, entry.2.content? = none →
    ∃ (status : ℕ) (output errors : List UInt8), status ≠ 0 ∧
      answer checkout.program checkout.root (.blob revision (leadOf directory ++ entry.1)) =
        .ended status output errors

/-- Whether an entry is passed over: it stands in a skipped directory, or its extension is one that
no analyzer takes, or something is kept of it and no analyzer takes that. -/
def IsPassedOver (registry : Registry) (options : Options) (directory : String)
    (entry : String × Git.TreeFile) : Prop :=
  inSkipped options.skipped entry.1 = true ∨
    isForeign registry (leadOf directory ++ entry.1) = true ∨
    ∃ content, entry.2.content? = some content ∧
      registry.analyzerOfContent? (Path.extension? (leadOf directory ++ entry.1))
        (some content) = none

section

variable {answer : String → String → Git.Query → Git.Reply} {checkout : Git.Checkout}
  {registry : Registry} {options : Options} {revision directory label : String}
  {entries : List (String × Git.TreeFile)}

/-- The recorded file that is made of an entry. -/
def entryFile? (answer : String → String → Git.Query → Git.Reply) (checkout : Git.Checkout)
    (registry : Registry) (options : Options) (revision directory : String)
    (entry : String × Git.TreeFile) : Option RecordedFile :=
  listedFile? registry options revision (leadOf directory) (leadOf directory ++ entry.1)
    (Git.Session.outcome answer (checkout.blob revision (leadOf directory ++ entry.1)))

/-- The files below a directory are taken from all entries that git lists, whatever their kinds. -/
theorem outcome_recordedBelow_entries
    (holds : Holds answer checkout revision directory entries) :
    Git.Session.outcome answer (recordedBelow registry options checkout revision directory) =
      .ok (entries.filterMap
        (entryFile? answer checkout registry options revision directory)) := by
  obtain ⟨errors, reply⟩ := holds.listed
  have tags : ∀ tag ∈ entries.map Prod.fst, tag ≠ "" ∧ Char.ofNat 0 ∉ tag.toList := by
    intro tag ht
    obtain ⟨entry, he, rfl⟩ := List.mem_map.1 ht
    exact holds.named entry he
  have lines : (entries.map fun entry => (leadOf directory ++ entry.1).toList) =
      (entries.map Prod.fst).map fun tag => (leadOf directory ++ tag).toList := by
    rw [List.map_map]
    rfl
  rw [lines] at reply
  rw [outcome_recordedBelow_listed holds.asked tags reply, List.filterMap_map]
  refine congrArg Except.ok (List.filterMap_congr fun entry _ => ?_)
  dsimp only [Function.comp_apply, entryFile?]

/-- What is read of an entry that something is kept of. -/
theorem Holds.read (holds : Holds answer checkout revision directory entries)
    {entry : String × Git.TreeFile} (he : entry ∈ entries) {content : List UInt8}
    (h : entry.2.content? = some content) :
    Git.Session.outcome answer (checkout.blob revision (leadOf directory ++ entry.1)) =
      .ok content := by
  obtain ⟨errors, reply⟩ := holds.kept entry he content h
  exact Git.Checkout.outcome_blob reply

/-- What is read of an entry that nothing is kept of. -/
theorem Holds.read_none (holds : Holds answer checkout revision directory entries)
    {entry : String × Git.TreeFile} (he : entry ∈ entries) (h : entry.2.content? = none) :
    ∃ failure, Git.Session.outcome answer
      (checkout.blob revision (leadOf directory ++ entry.1)) = .error failure := by
  obtain ⟨status, output, errors, failed, reply⟩ := holds.refused entry he h
  exact ⟨_, Git.Checkout.outcome_output_of_ne_zero failed reply⟩

/-- What is made of an entry that something is kept of. -/
theorem entryFile?_of_content (holds : Holds answer checkout revision directory entries)
    {entry : String × Git.TreeFile} (he : entry ∈ entries) {content : List UInt8}
    (kept : entry.2.content? = some content) :
    entryFile? answer checkout registry options revision directory entry =
      listedFile? registry options revision (leadOf directory) (leadOf directory ++ entry.1)
        (.ok content) := by
  unfold entryFile?
  rw [holds.read he kept]

/-- Nothing is made of an entry exactly when it is passed over. -/
theorem entryFile?_eq_none_iff (holds : Holds answer checkout revision directory entries)
    {entry : String × Git.TreeFile} (he : entry ∈ entries) :
    entryFile? answer checkout registry options revision directory entry = none ↔
      IsPassedOver registry options directory entry := by
  unfold entryFile? listedFile? IsPassedOver
  rw [tag_append, ← or_assoc, ← Bool.or_eq_true]
  dsimp only
  split_ifs with passed
  · exact iff_of_true rfl (Or.inl passed)
  · rw [or_iff_right passed, Option.map_eq_none_iff]
    cases kept : entry.2.content? with
    | none =>
      obtain ⟨failure, read⟩ := holds.read_none he kept
      rw [read]
      simp
    | some content =>
      rw [holds.read he kept]
      unfold recordedTask? materialize
      simp [extension?_temporaryPath]

/-- Of the regular files the same is made when git holds nothing else. -/
theorem outcome_recordedBelow_regular {answer' : String → String → Git.Query → Git.Reply}
    (full : Holds answer checkout revision directory entries)
    (bare : Holds answer' checkout revision directory
      (entries.filter fun entry => entry.2.isRegular)) :
    Git.Session.outcome answer' (recordedBelow registry options checkout revision directory) =
      .ok ((entries.filter fun entry => entry.2.isRegular).filterMap
        (entryFile? answer checkout registry options revision directory)) := by
  rw [outcome_recordedBelow_entries bare]
  refine congrArg Except.ok (List.filterMap_congr fun entry he => ?_)
  obtain ⟨inside, regular⟩ := List.mem_filter.1 he
  obtain ⟨content, kept⟩ := Git.TreeFile.content?_of_isRegular regular
  rw [entryFile?_of_content bare he kept, entryFile?_of_content full inside kept]

end

/-- A repository with one commit of these files, in the work tree at hand. -/
def repositoryOf (files : List (String × Git.TreeFile)) : Git.Repository where
  root := ["work"]
  commits := [⟨[], files⟩]
  references := [("refs/heads/main", 0)]
  head := "refs/heads/main"

/-- The repository answers that its commit holds the files. -/
theorem holds_repositoryOf {files : List (String × Git.TreeFile)}
    (distinct : (files.map Prod.fst).Nodup)
    (named : ∀ file ∈ files, file.1 ≠ "" ∧ Char.ofNat 0 ∉ file.1.toList) :
    Holds (fun _ => (repositoryOf files).reply sampleSpace) ⟨"git", "/work"⟩ "HEAD" "" files := by
  have topLevel : (repositoryOf files).topLevel? sampleSpace "/work" = some ["work"] := by
    unfold Git.Repository.topLevel?
    rw [canonical?_sampleSpace]
    rfl
  have recorded : (repositoryOf files).commit? "HEAD" = some ⟨[], files⟩ := rfl
  have plain : ∀ file : String × Git.TreeFile, leadOf "" ++ file.1 = file.1 :=
    fun _ => String.empty_append
  have listed : (repositoryOf files).reply sampleSpace "/work" (.files "HEAD" "") =
      .success (Git.listing (files.map fun file => (leadOf "" ++ file.1).toList)) := by
    have all : (⟨[], files⟩ : Git.Commit).filesAt [] = files.map fun file => file.1.toList := by
      unfold Git.Commit.filesAt
      exact congrArg _ (List.filter_true files)
    have path : Git.plainPath? "" = some [] := by decide
    unfold Git.Repository.reply
    simp only [topLevel, plain]
    unfold Git.Repository.atCommit
    rw [if_neg (by decide), recorded, Option.elim_some, path, Option.elim_some, all]
  have read : ∀ file ∈ files, (repositoryOf files).reply sampleSpace "/work"
      (.blob "HEAD" (leadOf "" ++ file.1)) = file.2.content?.elim .failure .success := by
    intro file hf
    have found : files.lookup file.1 = some file.2 := (lookup_eq_some_iff_mem distinct).2 hf
    unfold Git.Repository.reply
    simp only [topLevel, plain]
    unfold Git.Repository.atCommit
    rw [if_neg (by decide), recorded, Option.elim_some]
    unfold Git.Commit.file?
    rw [String.ofList_toList, found, Option.bind_some]
  -- What has content is answered with it, and what has none with a failure.
  refine ⟨by decide, named, ⟨[], listed⟩, fun file hf content kept => ⟨[], ?_⟩,
    fun file hf kept => ⟨128, [], [], by decide, ?_⟩⟩
  · rw [read file hf, kept]
    rfl
  · rw [read file hf, kept]
    rfl

/-- Leaving out members keeps the number of what is made of a list exactly when nothing is made of
the members that are left out. -/
theorem length_filterMap_filter_iff {α β : Type} (p : α → Bool) (f : α → Option β) (xs : List α) :
    (xs.filterMap f).length = ((xs.filter p).filterMap f).length ↔
      ∀ x ∈ xs, p x = false → f x = none := by
  rw [List.length_filterMap_eq_countP, List.length_filterMap_eq_countP,
    List.countP_eq_countP_filter_add xs (fun x => (f x).isSome) p, Nat.add_eq_left,
    List.countP_eq_zero]
  simp

/-- A directory at a revision is gathered as if its links and submodules were not there exactly when
all of them are passed over. -/
theorem recordedDirectory_eq_iff_passedOver
    {answer answer' : String → String → Git.Query → Git.Reply} {checkout : Git.Checkout}
    {registry : Registry} {options : Options} {revision directory label : String}
    {entries : List (String × Git.TreeFile)}
    (full : Holds answer checkout revision directory entries)
    (bare : Holds answer' checkout revision directory
      (entries.filter fun entry => entry.2.isRegular)) :
    ∃ whole regular : Structure,
      Git.Session.outcome answer
        (recordedDirectory registry options checkout revision directory label) = .ok whole ∧
      Git.Session.outcome answer'
        (recordedDirectory registry options checkout revision directory label) = .ok regular ∧
      (whole = regular ↔ ∀ entry ∈ entries, entry.2.isRegular = false →
        IsPassedOver registry options directory entry) := by
  refine ⟨_, _, outcome_recordedDirectory (outcome_recordedBelow_entries full),
    outcome_recordedDirectory (outcome_recordedBelow_regular full bare),
    fun equal => ?_, fun passed => ?_⟩
  -- The two numbers of a structure count the files it is gathered from.
  · have lengths := congrArg (fun whole => whole.fileCount.getD 0 + whole.skippedFiles) equal
    rw [length_gather, length_gather, List.length_map, List.length_map] at lengths
    exact fun entry he irregular => (entryFile?_eq_none_iff full he).1
      ((length_filterMap_filter_iff _ _ _).1 lengths entry he irregular)
  · congr 2
    rw [List.filterMap_filter]
    refine List.filterMap_congr fun entry he => ?_
    split_ifs with regular
    · rfl
    · exact (entryFile?_eq_none_iff full he).2
        (passed entry he (Bool.eq_false_iff.2 regular))

/-- A file, and entries that are passed over: a submodule whose name has the wrong extension, a link
in a skipped directory, and a link without an extension to a file that is no script. -/
def strayEntries : List (String × Git.TreeFile) :=
  [("a.py", .regular false (Text.encodeUtf8 "def f():\n    pass\n".toList)),
    ("assets.git", .submodule), ("build/a.py", .link "../a.py"), ("docs", .link "a.py")]

/-- Entries that are passed over make no difference to the directory. -/
theorem recordedDirectory_strayEntries :
    ∃ whole regular : Structure,
      Git.Session.outcome (fun _ => (repositoryOf strayEntries).reply sampleSpace)
        (recordedDirectory .builtin .standard ⟨"git", "/work"⟩ "HEAD" "" ".@HEAD") = .ok whole ∧
      Git.Session.outcome
        (fun _ => (repositoryOf (strayEntries.filter (·.2.isRegular))).reply sampleSpace)
        (recordedDirectory .builtin .standard ⟨"git", "/work"⟩ "HEAD" "" ".@HEAD") = .ok regular ∧
      whole = regular := by
  have passed : ∀ entry ∈ strayEntries, entry.2.isRegular = false →
      IsPassedOver .builtin .standard "" entry := by
    intro entry he irregular
    simp only [strayEntries, List.mem_cons, List.not_mem_nil, or_false] at he
    rcases he with rfl | rfl | rfl | rfl
    · exact absurd irregular (by decide)
    · exact Or.inr (Or.inl (by decide))
    · exact Or.inl (by decide)
    · exact Or.inr (Or.inr ⟨_, rfl, by decide⟩)
  obtain ⟨whole, regular, all, kept, same⟩ :=
    @recordedDirectory_eq_iff_passedOver (fun _ => (repositoryOf strayEntries).reply sampleSpace)
      (fun _ => (repositoryOf (strayEntries.filter (·.2.isRegular))).reply sampleSpace)
      ⟨"git", "/work"⟩ .builtin .standard "HEAD" "" ".@HEAD" strayEntries
      (holds_repositoryOf (by decide) (by decide)) (holds_repositoryOf (by decide) (by decide))
  exact ⟨whole, regular, all, kept, same.2 passed⟩

/-- A source file, a link to it and a submodule. -/
def linkedFiles : List (String × Git.TreeFile) :=
  [("a.py", .regular false (Text.encodeUtf8 "def f():\n    pass\n".toList)),
    ("latest.py", .link "a.py"), ("vendor", .submodule)]

/-- What is made of an entry of the commit. -/
def linkedFile? : String × Git.TreeFile → Option RecordedFile :=
  entryFile? (fun _ => (repositoryOf linkedFiles).reply sampleSpace) ⟨"git", "/work"⟩ .builtin
    .standard "HEAD" ""

/-- Through the link a second file is counted, and the submodule as a file that cannot be read. -/
theorem recordedDirectory_linkedFiles :
    ∃ whole regular : Structure,
      Git.Session.outcome (fun _ => (repositoryOf linkedFiles).reply sampleSpace)
        (recordedDirectory .builtin .standard ⟨"git", "/work"⟩ "HEAD" "" ".@HEAD") = .ok whole ∧
      Git.Session.outcome
        (fun _ => (repositoryOf (linkedFiles.filter (·.2.isRegular))).reply sampleSpace)
        (recordedDirectory .builtin .standard ⟨"git", "/work"⟩ "HEAD" "" ".@HEAD") = .ok regular ∧
      (whole.fileCount, whole.skippedFiles) = (some 2, 1) ∧
      (regular.fileCount, regular.skippedFiles) = (some 1, 0) := by
  have full := @holds_repositoryOf linkedFiles (by decide) (by decide)
  have bare := @holds_repositoryOf (linkedFiles.filter (·.2.isRegular))
    (by decide) (by decide)
  have source : linkedFile?
      ("a.py", .regular false (Text.encodeUtf8 "def f():\n    pass\n".toList)) =
        some ⟨"a.py", "a.py@HEAD", .ok ⟨"/tmp/semdiff-XXXXXX.py", .python,
          Text.encodeUtf8 "def f():\n    pass\n".toList⟩⟩ :=
    entryFile?_of_content full (by decide) rfl
  -- The link's target is analyzed as if it were a program.
  have latest : linkedFile? ("latest.py", .link "a.py") =
      some ⟨"latest.py", "latest.py@HEAD", .ok ⟨"/tmp/semdiff-XXXXXX.py", .python,
        Text.encodeUtf8 "a.py".toList⟩⟩ :=
    entryFile?_of_content full (by decide) rfl
  obtain ⟨failure, vendor⟩ : ∃ failure, linkedFile? ("vendor", .submodule) =
      some ⟨"vendor", "vendor@HEAD", .error failure⟩ := by
    have inside : ("vendor", .submodule) ∈ linkedFiles := by decide
    obtain ⟨failure, unread⟩ := full.read_none inside rfl
    refine ⟨failure, ?_⟩
    unfold linkedFile? entryFile?
    rw [unread]
    rfl
  have all : Git.Session.outcome (fun _ => (repositoryOf linkedFiles).reply sampleSpace)
      (recordedBelow .builtin .standard ⟨"git", "/work"⟩ "HEAD" "") =
        .ok (linkedFiles.filterMap linkedFile?) := outcome_recordedBelow_entries full
  have kept : Git.Session.outcome
      (fun _ => (repositoryOf (linkedFiles.filter (·.2.isRegular))).reply sampleSpace)
      (recordedBelow .builtin .standard ⟨"git", "/work"⟩ "HEAD" "") =
        .ok ((linkedFiles.filter (·.2.isRegular)).filterMap linkedFile?) :=
    outcome_recordedBelow_regular full bare
  refine ⟨_, _, outcome_recordedDirectory all, outcome_recordedDirectory kept, ?_, ?_⟩
  · simp only [linkedFiles, List.filterMap_cons, List.filterMap_nil, source, latest, vendor]
    rfl
  · have one : (linkedFiles.filter (·.2.isRegular)) =
        [("a.py", .regular false (Text.encodeUtf8 "def f():\n    pass\n".toList))] := by decide
    rw [one, List.filterMap_cons_some source]
    rfl

end Resolve

end CodeDelta
