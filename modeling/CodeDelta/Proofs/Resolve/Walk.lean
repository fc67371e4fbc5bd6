import CodeDelta.Proofs.Files.Tags
import CodeDelta.Resolve.Directory
import Mathlib.Data.List.Nodup

/-!
# The files of a tree

All files of a tree, whatever is skipped, and what a walk makes of them: as long as ignore files do
not count, pruning the skipped directories leaves the files that have none of them on their way
(`filesIn_eq_filter`). So the tasks of a work tree are those of its own files (`tasksBelow_eq`), and
git's entry at the root adds none to them. In a regular tree every file has a path of its own
(`nodup_tags`).
-/

namespace CodeDelta.Resolve

namespace Found

/-- The file as it is found from further above. -/
def under (above : List String) (found : Found) : Found :=
  { found with names := above ++ found.names }

/-- The path from where the search began. -/
def tag (found : Found) : String := Path.join found.names

/-- Whether no directory on the way to the file is skipped. -/
def isOutside (skipped : List String) (found : Found) : Bool :=
  !found.names.dropLast.any fun name => skipped.contains name

/-- The analyzer that takes the file. -/
def taker? (registry : Registry) (found : Found) : Option Analyzer :=
  registry.analyzerOfContent? (found.names.getLast?.bind Path.nameExtension?) (some found.content)

end Found

mutual

/-- All files at or below a node; links are none. -/
def filesAt : FileTree → List Found
  | .file content => [⟨[], content⟩]
  | .link _ => []
  | .directory entries => filesAmong entries

/-- All files below a directory with these entries. -/
def filesAmong : List (String × FileTree) → List Found
  | [] => []
  | (name, node) :: rest => (filesAt node).map (Found.under [name]) ++ filesAmong rest

end

mutual

/-- Whether a tree has no links, and every directory of it entries with names of their own. -/
def IsRegular : FileTree → Prop
  | .file _ => True
  | .link _ => False
  | .directory entries => AreRegular entries

/-- Whether a directory with these entries is regular. -/
def AreRegular : List (String × FileTree) → Prop
  | [] => True
  | (name, node) :: rest =>
    Path.IsName name ∧ name ∉ rest.map Prod.fst ∧ IsRegular node ∧ AreRegular rest

end

/-! ## Names of files -/

/-- A file of a directory is found under the name of an entry. -/
theorem exists_name_of_mem_filesAmong {entries : List (String × FileTree)} {found : Found}
    (h : found ∈ filesAmong entries) :
    ∃ name ∈ entries.map Prod.fst, ∃ names, found.names = name :: names := by
  induction entries with
  | nil => exact absurd h List.not_mem_nil
  | cons entry rest ih =>
    obtain ⟨name, node⟩ := entry
    rw [filesAmong, List.mem_append] at h
    rcases h with h | h
    · obtain ⟨below, -, rfl⟩ := List.mem_map.1 h
      exact ⟨name, List.mem_cons_self, below.names, rfl⟩
    · obtain ⟨other, ho, names, same⟩ := ih h
      exact ⟨other, List.mem_cons_of_mem _ ho, names, same⟩

/-- A file of a directory has a name. -/
theorem names_ne_nil {entries : List (String × FileTree)} {found : Found}
    (h : found ∈ filesAmong entries) : found.names ≠ [] := by
  obtain ⟨name, -, names, same⟩ := exists_name_of_mem_filesAmong h
  rw [same]
  exact List.cons_ne_nil name names

mutual

/-- The names on the way to a file of a regular tree are names. -/
theorem isName_of_mem_filesAt : ∀ {node : FileTree}, IsRegular node →
    ∀ {found : Found}, found ∈ filesAt node → ∀ name ∈ found.names, Path.IsName name
  | .file content, _, found, h, name, hn => by
    rw [filesAt, List.mem_singleton] at h
    rw [h] at hn
    exact absurd hn List.not_mem_nil
  | .link _, regular, _, _, _, _ => regular.elim
  | .directory entries, regular, found, h, name, hn => by
    rw [filesAt] at h
    exact isName_of_mem_filesAmong regular h name hn

/-- The names on the way to a file of a regular directory are names. -/
theorem isName_of_mem_filesAmong : ∀ {entries : List (String × FileTree)}, AreRegular entries →
    ∀ {found : Found}, found ∈ filesAmong entries → ∀ name ∈ found.names, Path.IsName name
  | [], _, _, h, _, _ => absurd h List.not_mem_nil
  | (first, node) :: rest, regular, found, h, name, hn => by
    obtain ⟨valid, -, below, others⟩ := regular
    rw [filesAmong, List.mem_append] at h
    rcases h with h | h
    · obtain ⟨inner, hi, rfl⟩ := List.mem_map.1 h
      rcases List.mem_cons.1 hn with rfl | hn
      · exact valid
      · exact isName_of_mem_filesAt below hi name hn
    · exact isName_of_mem_filesAmong others h name hn

end

mutual

/-- No two files of a regular tree are found under the same names. -/
theorem nodup_names_filesAt : ∀ {node : FileTree}, IsRegular node →
    ((filesAt node).map Found.names).Nodup
  | .file _, _ => List.nodup_singleton []
  | .link _, regular => regular.elim
  | .directory entries, regular => by
    rw [filesAt]
    exact nodup_names_filesAmong regular

/-- No two files of a regular directory are found under the same names. -/
theorem nodup_names_filesAmong : ∀ {entries : List (String × FileTree)}, AreRegular entries →
    ((filesAmong entries).map Found.names).Nodup
  | [], _ => List.nodup_nil
  | (name, node) :: rest, regular => by
    obtain ⟨-, fresh, below, others⟩ := regular
    have first : (((filesAt node).map (Found.under [name])).map Found.names).Nodup := by
      have longer : Found.names ∘ Found.under [name] = List.cons name ∘ Found.names := rfl
      rw [List.map_map, longer, ← List.map_map]
      exact (nodup_names_filesAt below).map (List.cons_injective)
    rw [filesAmong, List.map_append, List.nodup_append']
    refine ⟨first, nodup_names_filesAmong others, ?_⟩
    -- Files of different entries differ in their first name.
    intro names here there
    obtain ⟨found, hf, rfl⟩ := List.mem_map.1 here
    obtain ⟨inner, -, rfl⟩ := List.mem_map.1 hf
    obtain ⟨other, ho, same⟩ := List.mem_map.1 there
    obtain ⟨entry, he, names, split⟩ := exists_name_of_mem_filesAmong ho
    rw [split] at same
    obtain ⟨rfl, -⟩ := List.cons.inj same
    exact fresh he

end

/-- Every file of a regular directory has a path of its own. -/
theorem nodup_tags {entries : List (String × FileTree)} (regular : AreRegular entries) :
    ((filesAmong entries).map Found.tag).Nodup := by
  have distinct := nodup_names_filesAmong regular
  unfold List.Nodup at distinct ⊢
  rw [List.pairwise_map] at distinct ⊢
  refine distinct.imp_of_mem fun {found other} hf ho differ same => differ ?_
  exact Path.join_injective (Path.isPart_of_isName (isName_of_mem_filesAmong regular hf))
    (Path.isPart_of_isName (isName_of_mem_filesAmong regular ho)) same

/-! ## The walk -/

/-- A file of a directory is outside when the directory is not skipped and the file is outside
below it. -/
theorem isOutside_under {skipped : List String} {name : String} {found : Found}
    (h : found.names ≠ []) :
    (found.under [name]).isOutside skipped =
      (!skipped.contains name && found.isOutside skipped) := by
  have names : (found.under [name]).names.dropLast = name :: found.names.dropLast :=
    List.dropLast_cons_of_ne_nil h
  unfold Found.isOutside
  rw [names, List.any_cons, Bool.not_or]

/-- Files are found from further above in two steps or in one. -/
theorem map_under_under (above : List String) (name : String) (files : List Found) :
    (files.map (Found.under [name])).map (Found.under above) =
      files.map (Found.under (above ++ [name])) := by
  rw [List.map_map]
  refine List.map_congr_left fun found _ => ?_
  dsimp only [Function.comp_apply, Found.under]
  rw [List.append_assoc]

/-- The files outside skipped directories below one that is not skipped. -/
theorem filter_isOutside_under {skipped : List String} {name : String} (h : name ∉ skipped)
    (entries : List (String × FileTree)) :
    ((filesAmong entries).map (Found.under [name])).filter (Found.isOutside skipped) =
      ((filesAmong entries).filter (Found.isOutside skipped)).map (Found.under [name]) := by
  have absent : (!skipped.contains name) = true := by
    rw [Bool.not_eq_true', List.contains_eq_mem, decide_eq_false h]
  rw [List.filter_map]
  refine congrArg (List.map _) (List.filter_congr fun found hf => ?_)
  rw [Function.comp_apply, isOutside_under (names_ne_nil hf), absent, Bool.true_and]

/-- No file below a skipped directory is outside. -/
theorem filter_isOutside_skipped {skipped : List String} {name : String} (h : name ∈ skipped)
    (entries : List (String × FileTree)) :
    ((filesAmong entries).map (Found.under [name])).filter (Found.isOutside skipped) = [] := by
  have present : (!skipped.contains name) = false := by
    rw [Bool.not_eq_false', List.contains_eq_mem, decide_eq_true h]
  rw [List.filter_eq_nil_iff]
  intro found hf
  obtain ⟨inner, hi, rfl⟩ := List.mem_map.1 hf
  rw [isOutside_under (names_ne_nil hi), present, Bool.false_and]
  exact Bool.false_ne_true

mutual

/-- Pruning at one entry leaves the files that are outside skipped directories. -/
theorem filesOf_eq_filter (space : Workspace) (skipped : List String) :
    ∀ (scope : Scope), scope.levels = none → ∀ (above : List String) (name : String)
      (node : FileTree), filesOf space skipped scope above name node =
        (((filesAt node).map (Found.under [name])).filter (Found.isOutside skipped)).map
          (Found.under above)
  | scope, free, above, name, .file content => by
    have kept : scope.leavesOut (above ++ [name]) false = false := by
      unfold Scope.leavesOut
      rw [free]
      rfl
    rw [filesOf, if_neg (Bool.eq_false_iff.1 kept)]
    rfl
  | _, _, _, _, .link _ => by rfl
  | scope, free, above, name, .directory entries => by
    have kept : scope.leavesOut (above ++ [name]) true = false := by
      unfold Scope.leavesOut
      rw [free]
      rfl
    have inside : (scope.enter space (above ++ [name])).levels = none := by
      unfold Scope.enter
      rw [free]
      rfl
    rw [filesOf, filesAt]
    -- All files below a skipped directory are inside it, so it makes no difference to enter it.
    by_cases h : name ∈ skipped
    · rw [filter_isOutside_skipped h]
      exact if_pos (Or.inl h)
    · have entered : ¬(name ∈ skipped ∨ scope.leavesOut (above ++ [name]) true = true) := by
        rw [kept, not_or]
        exact ⟨h, Bool.false_ne_true⟩
      rw [if_neg entered, filesIn_eq_filter space skipped _ inside, filter_isOutside_under h,
        map_under_under]

/-- Pruning a directory leaves the files that are outside skipped directories. -/
theorem filesIn_eq_filter (space : Workspace) (skipped : List String) :
    ∀ (scope : Scope), scope.levels = none → ∀ (above : List String)
      (entries : List (String × FileTree)), filesIn space skipped scope above entries =
        ((filesAmong entries).filter (Found.isOutside skipped)).map (Found.under above)
  | _, _, _, [] => rfl
  | scope, free, above, (name, node) :: rest => by
    rw [filesIn, filesAmong, List.filter_append, List.map_append,
      filesOf_eq_filter space skipped scope free, filesIn_eq_filter space skipped scope free]

end

/-! ## Tags -/

/-- The tag of a task is its path below the one that the search began at. -/
theorem tag_eq_relative {registry : Registry} {options : Options} {space : Workspace}
    {path : String}
    (valid : ∀ found ∈ filesBelow options space path, ∀ name ∈ found.names, Path.IsPart name)
    {entry : String × Task} (h : entry ∈ tasksBelow registry options space path) :
    entry.1 = Path.relative entry.2.path path := by
  obtain ⟨found, below, taken⟩ := List.mem_filterMap.1 h
  obtain ⟨analyzer, -, rfl⟩ := Option.map_eq_some_iff.1 taken
  have filled : path ≠ "" := by
    rintro rfl
    have nothing : space.canonical? "" = none := rfl
    unfold filesBelow at below
    rw [nothing] at below
    exact absurd below List.not_mem_nil
  dsimp only
  by_cases alone : found.names = []
  · -- A path that is a file has no names behind itself.
    have itself : Path.relative (Path.along path []) path = "" :=
      Path.relative_along (List.forall_mem_nil _) path
    rw [alone]
    exact itself.symm
  · rw [if_neg (mt List.isEmpty_iff.1 alone)]
    exact (Path.relative_append_join (valid found below) filled).symm

/-! ## Work trees -/

/-- Whether a node can be git's own entry of a work tree: its directory, or a file that names no
interpreter but the place of that directory. -/
def IsOwn : FileTree → Prop
  | .file content => Interpreter.ofContent? content = none
  | _ => True

/-- The entries of a directory besides git's own. -/
def withoutOwn (entries : List (String × FileTree)) : List (String × FileTree) :=
  entries.filter fun entry => entry.1 != ".git"

/-- Whether a path leads to a directory that holds the entries of a tree and, besides them, at most
git's own. -/
def CheckedOut (space : Workspace) (path : String) (tree : List (String × FileTree)) : Prop :=
  ∃ base live, space.canonical? path = some base ∧
    space.disk.descend? base = some (.directory live) ∧
    withoutOwn live = tree ∧ ∀ node, (".git", node) ∈ live → IsOwn node

/-- The analyzer of a file below a directory is told by the file's own name. -/
theorem analyzer?_eq_taker? {found : Found} (h : found.names ≠ []) (registry : Registry)
    (path : String) : found.analyzer? registry path = found.taker? registry := by
  have last : found.names.getLast? = some (found.names.getLast h) :=
    List.getLast?_eq_some_getLast h
  unfold Found.analyzer? Found.taker?
  rw [last]
  rfl

/-- The task of a file below a path; nothing when no analyzer takes the file. -/
def liveTask? (registry : Registry) (path : String) (found : Found) : Option (String × Task) :=
  (found.taker? registry).map fun analyzer =>
    (found.tag, ⟨path ++ "/" ++ found.tag, analyzer, found.content⟩)

/-- Git's own entry holds no task: its directory is skipped, and its file names no interpreter. -/
theorem filterMap_own {skipped : List String} (own : ".git" ∈ skipped) {node : FileTree}
    (h : IsOwn node) (registry : Registry) (path : String) :
    (((filesAt node).map (Found.under [".git"])).filter (Found.isOutside skipped)).filterMap
      (liveTask? registry path) = [] := by
  cases node with
  | file content =>
    have unread : Interpreter.ofContent? content = none := h
    have untaken : Found.taker? registry ⟨[".git"], content⟩ = none := by
      have noExtension : Path.nameExtension? ".git" = none := by decide
      unfold Found.taker? Registry.analyzerOfContent?
      rw [List.getLast?_singleton, Option.bind_some, noExtension]
      dsimp only
      rw [Option.bind_some, unread]
      rfl
    have alone : ((filesAt (.file content)).map (Found.under [".git"])).filter
        (Found.isOutside skipped) = [⟨[".git"], content⟩] := rfl
    rw [alone, List.filterMap_cons_none, List.filterMap_nil]
    unfold liveTask?
    rw [untaken]
    rfl
  | link target => rfl
  | directory entries =>
    rw [filesAt, filter_isOutside_skipped own]
    rfl

/-- The tasks below the root of a work tree are those of its other entries. -/
theorem filterMap_filesAmong_live {skipped : List String} (own : ".git" ∈ skipped)
    (registry : Registry) (path : String) {live : List (String × FileTree)}
    (h : ∀ node, (".git", node) ∈ live → IsOwn node) :
    ((filesAmong live).filter (Found.isOutside skipped)).filterMap (liveTask? registry path) =
      ((filesAmong (withoutOwn live)).filter (Found.isOutside skipped)).filterMap
        (liveTask? registry path) := by
  induction live with
  | nil => rfl
  | cons entry rest ih =>
    obtain ⟨name, node⟩ := entry
    have later := ih fun node hn => h node (List.mem_cons_of_mem _ hn)
    rw [filesAmong, List.filter_append, List.filterMap_append, later]
    -- Only git's own entry is dropped, and it adds nothing to either side.
    by_cases same : name = ".git"
    · subst same
      have dropped : withoutOwn ((".git", node) :: rest) = withoutOwn rest :=
        List.filter_cons_of_neg fun other => bne_iff_ne.1 other rfl
      rw [filterMap_own own (h node List.mem_cons_self), List.nil_append, dropped]
    · have kept : withoutOwn ((name, node) :: rest) = (name, node) :: withoutOwn rest :=
        List.filter_cons_of_pos (bne_iff_ne.2 same)
      rw [kept, filesAmong, List.filter_append, List.filterMap_append]

/-- The tasks of a work tree are those of the files that git keeps in it. -/
theorem tasksBelow_eq {registry : Registry} {options : Options} {space : Workspace} {path : String}
    {tree : List (String × FileTree)} (own : ".git" ∈ options.skipped)
    (free : options.respectIgnoreFiles = false) (out : CheckedOut space path tree) :
    tasksBelow registry options space path =
      ((filesAmong tree).filter (Found.isOutside options.skipped)).filterMap
        (liveTask? registry path) := by
  obtain ⟨base, live, leads, holds, rfl, hown⟩ := out
  have found : filesBelow options space path =
      (filesAmong live).filter (Found.isOutside options.skipped) := by
    have here : Found.under [] = id := rfl
    unfold filesBelow
    rw [leads]
    dsimp only
    rw [holds, free]
    dsimp only
    rw [if_neg Bool.false_ne_true, filesIn_eq_filter space options.skipped _ rfl, here, List.map_id]
  rw [← filterMap_filesAmong_live own registry path hown, ← found]
  unfold tasksBelow
  refine List.filterMap_congr fun file hf => ?_
  have named : file.names ≠ [] := by
    rw [found] at hf
    exact names_ne_nil (List.mem_of_mem_filter hf)
  have below : file.names.isEmpty = false := List.isEmpty_eq_false_iff.2 named
  rw [analyzer?_eq_taker? named]
  unfold liveTask?
  simp only [below, if_neg Bool.false_ne_true]
  rfl

end CodeDelta.Resolve
