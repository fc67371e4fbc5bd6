import CodeDelta.Proofs.Git.Session
import CodeDelta.Proofs.Resolve.Walk
import CodeDelta.Resolve.History

/-!
# The files of a revision

The recorded files of a directory are found by the names git lists and told apart by the texts of
their paths, a live walk by entries. Here each test on a text is shown to be the one on names:
`inSkipped_tag` for skipped directories, `isForeign_tag` and `extension?_temporaryPath` for the
extension that picks the analyzer. With git's answers as hypotheses (`Committed`) the files that are
to be analyzed are then those of the tree outside skipped directories (`outcome_recordedBelow`).
-/

namespace CodeDelta.Resolve

/-! ## Texts of paths -/

/-- A directory's lead is empty or ends in a slash. -/
theorem leadOf_eq (directory : String) :
    leadOf directory = "" ∨ ∃ above, leadOf directory = above ++ "/" := by
  unfold leadOf
  split_ifs with root
  · exact Or.inl rfl
  · exact Or.inr ⟨directory, rfl⟩

/-- The temporary file has the extension of the recorded one. -/
theorem extension?_temporaryPath (path : String) :
    Path.extension? (temporaryPath path) = Path.extension? path := by
  unfold temporaryPath
  cases h : Path.extension? path with
  | none => decide
  | some extension =>
    obtain ⟨noDot, noSlash⟩ := Path.not_mem_extension h
    have split : "/tmp/semdiff-XXXXXX" ++ ("." ++ extension) =
        "/tmp" ++ "/" ++ ("semdiff-XXXXXX" ++ "." ++ extension) := by
      have front : "/tmp" ++ "/" ++ "semdiff-XXXXXX" = "/tmp/semdiff-XXXXXX" := by decide
      rw [← front, String.append_assoc, String.append_assoc, String.append_assoc,
        String.append_assoc]
    have extended := Path.nameExtension?_append_dot noDot (show "semdiff-XXXXXX" ≠ "" by decide)
    have text : ("semdiff-XXXXXX" ++ "." ++ extension).toList =
        "semdiff-XXXXXX.".toList ++ extension.toList := String.toList_append
    change Path.extension? ("/tmp/semdiff-XXXXXX" ++ ("." ++ extension)) = some extension
    rw [split]
    generalize "semdiff-XXXXXX" ++ "." ++ extension = name at extended text
    have slashes : '/' ∉ name.toList := by
      rw [text, List.mem_append, not_or]
      exact ⟨by decide, noSlash⟩
    have long : 2 < name.toList.length := by
      have front : "semdiff-XXXXXX.".toList.length = 15 := by decide
      rw [text, List.length_append, front]
      omega
    have named : Component.ofPiece? name.toList = some (.named name) := by
      have longer : ∀ dots : List Char, dots.length ≤ 2 → name.toList ≠ dots := by
        rintro dots short same
        rw [same] at long
        omega
      rw [Path.ofPiece?_of_ne (longer [] (by decide)) (longer ['.'] (by decide))
        (longer ['.', '.'] (by decide)), String.ofList_toList]
    have last : (Path.pieces ("/tmp" ++ "/" ++ name)).getLast? = some name.toList := by
      have one : Path.pieces name = [name.toList] :=
        (Text.splitOnChar_eq_splitOn '/' name.toList).trans (List.splitOn_eq_singleton slashes)
      rw [Path.pieces_append_slash, one, List.getLast?_concat]
    -- The random part of the name holds no dot, so the copied extension is the whole one.
    unfold Path.extension?
    rw [Path.fileName?_of_getLast? last named]
    exact extended

/-- A path is in a skipped directory when a name on its way is one. -/
theorem inSkipped_tag {found : Found} (h : ∀ name ∈ found.names, Path.IsName name)
    (named : found.names ≠ []) (skipped : List String) :
    inSkipped skipped found.tag = !found.isOutside skipped := by
  have back : String.ofList ∘ String.toList = id := funext fun _ => String.ofList_toList
  unfold inSkipped Found.isOutside Found.tag
  rw [Path.pieces_join (Path.isPart_of_isName h) named, ← List.map_dropLast, List.map_map, back,
    List.map_id, Bool.not_not]

/-- The extension of a path below a directory is that of its last name. -/
theorem extension?_tag {found : Found} (h : ∀ name ∈ found.names, Path.IsName name)
    (named : found.names ≠ []) (directory : String) :
    Path.extension? (leadOf directory ++ found.tag) =
      found.names.getLast?.bind Path.nameExtension? := by
  have last : found.names.getLast? = some (found.names.getLast named) :=
    List.getLast?_eq_some_getLast named
  unfold Path.extension? Found.tag
  rw [Path.fileName?_append_join h last (leadOf_eq directory), last]

/-- A file of a foreign extension has no analyzer. -/
theorem taker?_of_isForeign {found : Found} (h : ∀ name ∈ found.names, Path.IsName name)
    (named : found.names ≠ []) {registry : Registry} {directory : String}
    (foreign : isForeign registry (leadOf directory ++ found.tag) = true) :
    found.taker? registry = none := by
  unfold isForeign at foreign
  rw [extension?_tag h named] at foreign
  unfold Found.taker? Registry.analyzerOfContent?
  cases ext : found.names.getLast?.bind Path.nameExtension? with
  | none =>
    rw [ext] at foreign
    exact absurd foreign Bool.false_ne_true
  | some extension =>
    rw [ext] at foreign
    exact Option.isNone_iff_eq_none.1 foreign

/-- A recorded file is analyzed by what takes the live one. -/
theorem recordedTask?_tag {found : Found} (h : ∀ name ∈ found.names, Path.IsName name)
    (named : found.names ≠ []) (registry : Registry) (directory : String) :
    recordedTask? registry (leadOf directory ++ found.tag) found.content =
      (found.taker? registry).map fun analyzer =>
        .ok ⟨temporaryPath (leadOf directory ++ found.tag), analyzer, found.content⟩ := by
  unfold recordedTask? materialize Found.taker?
  dsimp only
  rw [extension?_temporaryPath, extension?_tag h named]

/-! ## What git answers -/

/-- Whether git answers that a directory of a revision holds the files of a tree: it lists each of
them once, in some order, and hands out their contents. -/
structure Committed (answer : String → String → Git.Query → Git.Reply) (checkout : Git.Checkout)
    (revision directory : String) (tree : List (String × FileTree)) : Prop where
  /-- The question can be put. -/
  asked : (Git.Query.files revision directory).startFault? = none
  /-- The listing. -/
  listed : ∃ (order : List Found) (errors : List UInt8), order.Perm (filesAmong tree) ∧
    answer checkout.program checkout.root (.files revision directory) =
      .ended 0 (Git.listing (order.map fun found => (leadOf directory ++ found.tag).toList)) errors
  /-- The contents. -/
  kept : ∀ found ∈ filesAmong tree, ∃ errors : List UInt8,
    answer checkout.program checkout.root (.blob revision (leadOf directory ++ found.tag)) =
      .ended 0 found.content errors

/-- A directory that git can be asked about has no zero in its path. -/
theorem zero_not_mem_leadOf {revision directory : String}
    (asked : (Git.Query.files revision directory).startFault? = none) :
    Char.ofNat 0 ∉ (leadOf directory).toList := by
  intro zero
  unfold leadOf at zero
  split_ifs at zero with root
  · exact absurd zero List.not_mem_nil
  · rw [String.toList_append, List.mem_append] at zero
    have inside : Char.ofNat 0 ∈ directory.toList :=
      zero.resolve_right (by decide)
    have argument : directory ∈ (Git.Query.files revision directory).arguments := by
      unfold Git.Query.arguments
      dsimp only
      rw [if_neg root]
      exact List.mem_append_right _ (List.mem_cons_of_mem _ List.mem_cons_self)
    have refused : ((Git.Query.files revision directory).arguments.any fun argument =>
        argument.toList.contains (Char.ofNat 0)) = true :=
      List.any_eq_true.2 ⟨directory, argument, List.contains_iff_mem.2 inside⟩
    unfold Git.Query.startFault? at asked
    rw [if_pos refused] at asked
    exact absurd asked (Option.some_ne_none _)

/-- A path that git lists can be read back from the listing. -/
theorem listable_append {lead tag : String} (noZero : Char.ofNat 0 ∉ lead.toList)
    (h : tag ≠ "" ∧ Char.ofNat 0 ∉ tag.toList) :
    lead ++ tag ≠ "" ∧ Char.ofNat 0 ∉ (lead ++ tag).toList := by
  constructor
  · intro empty
    have text := congrArg String.toList empty
    rw [String.toList_append] at text
    exact h.1 (String.toList_inj.1 (List.append_eq_nil_iff.1 text).2)
  · rw [String.toList_append, List.mem_append, not_or]
    exact ⟨noZero, h.2⟩

/-! ## The run -/

/-- The recorded file of a path that git lists, from what is read of it; nothing in a skipped
directory, or when no analyzer takes the file. -/
def listedFile? (registry : Registry) (options : Options) (revision lead path : String)
    (read : Except Failure (List UInt8)) : Option RecordedFile :=
  let tag := ((Text.dropLead? lead.toList path.toList).map String.ofList).getD path
  if inSkipped options.skipped tag || isForeign registry path then none
  else
    let task : Option (Except Failure Task) :=
      match read with
      | .ok content => recordedTask? registry path content
      | .error failure => some (.error failure)
    task.map fun task => ⟨tag, labelAt path revision, task⟩

/-- The recorded file that is to be analyzed; nothing when no analyzer takes the file. -/
def asRecorded? (registry : Registry) (revision directory : String) (found : Found) :
    Option RecordedFile :=
  let path := leadOf directory ++ found.tag
  (found.taker? registry).map fun analyzer =>
    ⟨found.tag, labelAt path revision, .ok ⟨temporaryPath path, analyzer, found.content⟩⟩

/-- A path below a directory is told from the directory's lead. -/
theorem tag_append (lead tag : String) :
    ((Text.dropLead? lead.toList (lead ++ tag).toList).map String.ofList).getD (lead ++ tag) =
      tag := by
  rw [String.toList_append, Text.dropLead?_append, Option.map_some, String.ofList_toList,
    Option.getD_some]

section

variable {answer : String → String → Git.Query → Git.Reply} {checkout : Git.Checkout}
  {registry : Registry} {options : Options} {revision directory : String}

/-- What is observed of a session is its outcome. -/
@[simp]
theorem outcome_observe {α : Type} (session : Git.Session α) :
    Git.Session.outcome answer (recordedFiles.observe session) =
      .ok (Git.Session.outcome answer session) :=
  Git.Dialogue.run_bind answer session.run fun outcome =>
    .done (@Except.ok Failure _ outcome)

/-- The listed files are taken one by one, each by what is read of it. -/
theorem outcome_recordedFiles (lead : String) (paths : List String) :
    Git.Session.outcome answer
        (recordedFiles registry options checkout revision lead paths) =
      .ok (paths.filterMap fun path => listedFile? registry options revision lead path
        (Git.Session.outcome answer (checkout.blob revision path))) := by
  induction paths with
  | nil => rfl
  | cons path rest ih =>
    rw [recordedFiles, List.filterMap_cons]
    conv_rhs => rw [listedFile?.eq_def]
    dsimp only
    split_ifs with passed
    · exact ih
    · rw [Git.Session.outcome_bind, outcome_observe]
      dsimp only [Except.bind]
      rw [Git.Session.outcome_bind, ih]
      cases Git.Session.outcome answer (checkout.blob revision path) with
      | error failure => rfl
      | ok content =>
        dsimp only
        cases recordedTask? registry path content <;> rfl

/-- A file of a tree is taken when it is outside skipped directories and an analyzer takes it. -/
theorem listedFile?_tag {found : Found} (valid : ∀ name ∈ found.names, Path.IsName name)
    (named : found.names ≠ []) :
    listedFile? registry options revision (leadOf directory) (leadOf directory ++ found.tag)
        (.ok found.content) =
      if found.isOutside options.skipped then asRecorded? registry revision directory found
      else none := by
  unfold listedFile?
  simp only [tag_append, inSkipped_tag valid named, recordedTask?_tag valid named]
  by_cases outside : found.isOutside options.skipped = true
  · rw [if_pos outside, outside, Bool.not_true, Bool.false_or]
    split_ifs with foreign
    · unfold asRecorded?
      rw [taker?_of_isForeign valid named foreign]
      rfl
    · unfold asRecorded?
      rw [Option.map_map]
      rfl
  · rw [if_neg outside, Bool.eq_false_iff.2 outside, Bool.not_false, Bool.true_or, if_pos rfl]

/-- The files below a directory that are to be analyzed are taken from git's listing. -/
theorem outcome_recordedBelow_listed {tags : List String} {errors : List UInt8}
    (asked : (Git.Query.files revision directory).startFault? = none)
    (named : ∀ tag ∈ tags, tag ≠ "" ∧ Char.ofNat 0 ∉ tag.toList)
    (reply : answer checkout.program checkout.root (.files revision directory) =
      .ended 0 (Git.listing (tags.map fun tag => (leadOf directory ++ tag).toList)) errors) :
    Git.Session.outcome answer (recordedBelow registry options checkout revision directory) =
      .ok (tags.filterMap fun tag =>
        listedFile? registry options revision (leadOf directory) (leadOf directory ++ tag)
          (Git.Session.outcome answer (checkout.blob revision (leadOf directory ++ tag)))) := by
  have paths : ∀ path ∈ tags.map fun tag => leadOf directory ++ tag,
      path ≠ "" ∧ Char.ofNat 0 ∉ path.toList := by
    intro path hp
    obtain ⟨tag, ht, rfl⟩ := List.mem_map.1 hp
    exact listable_append (zero_not_mem_leadOf asked) (named tag ht)
  have lines : (tags.map fun tag => (leadOf directory ++ tag).toList) =
      (tags.map fun tag => leadOf directory ++ tag).map String.toList := by
    rw [List.map_map]
    rfl
  rw [lines] at reply
  unfold recordedBelow
  rw [Git.Session.outcome_bind, Git.Checkout.outcome_files paths reply]
  refine (outcome_recordedFiles _ _).trans (congrArg Except.ok ?_)
  simp only [List.filterMap_map, Function.comp_def]

/-- The recorded files of a regular directory that are to be analyzed are those outside skipped
directories that an analyzer takes, in the order of git's listing. -/
theorem outcome_recordedBelow {tree : List (String × FileTree)} (regular : AreRegular tree)
    (committed : Committed answer checkout revision directory tree) :
    ∃ order : List Found, order.Perm (filesAmong tree) ∧
      Git.Session.outcome answer (recordedBelow registry options checkout revision directory) =
        .ok ((order.filter (Found.isOutside options.skipped)).filterMap
          (asRecorded? registry revision directory)) := by
  obtain ⟨order, errors, same, reply⟩ := committed.listed
  have valid : ∀ found ∈ order, ∀ name ∈ found.names, Path.IsName name := fun found hf =>
    isName_of_mem_filesAmong regular (same.mem_iff.1 hf)
  have named : ∀ found ∈ order, found.names ≠ [] := fun found hf =>
    names_ne_nil (same.mem_iff.1 hf)
  have tags : ∀ tag ∈ order.map Found.tag, tag ≠ "" ∧ Char.ofNat 0 ∉ tag.toList := by
    intro tag ht
    obtain ⟨found, hf, rfl⟩ := List.mem_map.1 ht
    have filled : found.tag ≠ "" :=
      mt (Path.join_eq_empty_iff (Path.isPart_of_isName (valid found hf))).1 (named found hf)
    exact ⟨filled, Path.zero_not_mem_join (valid found hf)⟩
  have lines : (order.map fun found => (leadOf directory ++ found.tag).toList) =
      (order.map Found.tag).map fun tag => (leadOf directory ++ tag).toList := by
    rw [List.map_map]
    rfl
  rw [lines] at reply
  refine ⟨order, same, ?_⟩
  rw [outcome_recordedBelow_listed committed.asked tags reply, List.filterMap_map,
    List.filterMap_filter]
  refine congrArg Except.ok (List.filterMap_congr fun found hf => ?_)
  obtain ⟨errors, reply⟩ := committed.kept found (same.mem_iff.1 hf)
  dsimp only [Function.comp_apply]
  rw [Git.Checkout.outcome_blob reply, listedFile?_tag (valid found hf) (named found hf)]

/-- A directory's structure gathers the outcomes of the files below it. -/
theorem outcome_recordedDirectory {label : String} {files : List RecordedFile}
    (below : Git.Session.outcome answer
      (recordedBelow registry options checkout revision directory) = .ok files) :
    Git.Session.outcome answer
        (recordedDirectory registry options checkout revision directory label) =
      .ok (gather label (files.map fun file => (file.tag, file.outcome))) := by
  unfold recordedDirectory
  rw [Git.Session.outcome_bind, below]
  rfl

end

end CodeDelta.Resolve
