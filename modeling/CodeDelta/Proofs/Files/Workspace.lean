import CodeDelta.Files.Workspace
import CodeDelta.Proofs.Files.Path
import Mathlib.Data.Nat.Notation

/-!
# Paths without links

Names that lead to a node from the root of the disk lead through directories only, so the path
along them is followed name by name and is its own canonical form, unless a link stands at its end
(`canonical?_of_descend?`).
-/

namespace CodeDelta

namespace FileTree

/-- Names are descended one after another. -/
theorem descend?_append (tree : FileTree) (front back : List String) :
    tree.descend? (front ++ back) = (tree.descend? front).bind fun node => node.descend? back := by
  induction front generalizing tree with
  | nil => rfl
  | cons name rest ih =>
    rw [List.cons_append, descend?, descend?]
    cases tree.child? name with
    | none => rfl
    | some child => exact ih child

/-- Only a directory has entries to descend to. -/
theorem eq_directory_of_child? {tree child : FileTree} {name : String}
    (h : tree.child? name = some child) : ∃ entries, tree = .directory entries := by
  cases tree with
  | directory entries => exact ⟨entries, rfl⟩
  | file content => exact absurd h (Option.some_ne_none child).symm
  | link target => exact absurd h (Option.some_ne_none child).symm

end FileTree

namespace Workspace

/-- Names that lead to a node are followed to it, unless it is a link. -/
theorem follow_of_descend? {disk node : FileTree} {names : List String}
    (valid : ∀ name ∈ names, Path.IsName name) (notLink : ∀ target, node ≠ .link target)
    (links : ℕ) {here : List String} (leads : disk.descend? (here.reverse ++ names) = some node) :
    follow disk links here (names.map String.toList) = .ok (names.reverse ++ here) := by
  induction names generalizing here with
  | nil =>
    rw [List.map_nil, follow]
    rfl
  | cons name rest ih =>
    obtain ⟨nonempty, notHere, notUp⟩ := (valid name List.mem_cons_self).isPart.toList_ne
    have plain : ¬(name.toList = [] ∨ name.toList = ['.']) := not_or.2 ⟨nonempty, notHere⟩
    rw [FileTree.descend?_append] at leads
    obtain ⟨parent, standing, below⟩ := Option.bind_eq_some_iff.1 leads
    rw [FileTree.descend?] at below
    obtain ⟨child, entry, later⟩ := Option.bind_eq_some_iff.1 below
    obtain ⟨entries, rfl⟩ := FileTree.eq_directory_of_child? entry
    have found : entries.lookup name = some child := entry
    have next : disk.descend? ((name :: here).reverse ++ rest) = some node := by
      rw [List.reverse_cons, FileTree.descend?_append, FileTree.descend?_append, standing,
        Option.bind_some, FileTree.descend?, entry]
      exact later
    have followed := ih (fun other ho => valid other (List.mem_cons_of_mem name ho)) next
    rw [List.map_cons, follow, standing]
    dsimp only
    rw [if_neg plain, if_neg notUp, String.ofList_toList, found, List.reverse_cons,
      List.append_assoc, List.singleton_append, ← followed]
    cases child with
    | link target =>
      -- Nothing stands below a link, so it could only be the node at the end.
      cases rest with
      | nil => exact absurd (Option.some_inj.1 later).symm (notLink target)
      | cons other rest => exact absurd later (Option.some_ne_none node).symm
    | file content => rfl
    | directory inner => rfl

/-- The path along names that lead to a node is its own canonical form, unless the node is a
link. -/
theorem canonical?_of_descend? {space : Workspace} {node : FileTree} {names : List String}
    (valid : ∀ name ∈ names, Path.IsName name) (nonempty : names ≠ [])
    (leads : space.disk.descend? names = some node) (notLink : ∀ target, node ≠ .link target) :
    space.canonical? ("/" ++ Path.join names) = some names := by
  have text : ("/" ++ Path.join names).toList = '/' :: (Path.join names).toList :=
    String.toList_append
  have absolute : Path.isAbsolute ("/" ++ Path.join names) = true := by
    unfold Path.isAbsolute
    rw [text]
    rfl
  have filled : "/" ++ Path.join names ≠ "" := by
    intro empty
    have chars := congrArg String.toList empty
    rw [text] at chars
    exact absurd chars (List.cons_ne_nil _ _)
  have noZero : ¬("/" ++ Path.join names).toList.contains (Char.ofNat 0) = true := by
    rw [List.contains_iff_mem, text, List.mem_cons, not_or]
    exact ⟨by decide, Path.zero_not_mem_join valid⟩
  have pieces : Path.pieces ("/" ++ Path.join names) = [] :: names.map String.toList := by
    rw [← String.empty_append (s := "/"), Path.pieces_append_slash,
      Path.pieces_join (Path.isPart_of_isName valid) nonempty]
    rfl
  have root : ∃ entries, space.disk = .directory entries := by
    cases names with
    | nil => exact absurd rfl nonempty
    | cons name rest =>
      obtain ⟨child, entry, -⟩ := Option.bind_eq_some_iff.1 leads
      exact FileTree.eq_directory_of_child? entry
  obtain ⟨entries, disk⟩ := root
  have here : space.disk.descend? ([] : List String).reverse = some (.directory entries) :=
    congrArg some disk
  -- The empty piece in front of the first slash stays at the root; the names are followed from it.
  unfold canonical? locate
  rw [if_neg filled, if_neg noZero, pieces]
  dsimp only
  rw [if_pos absolute, follow, here]
  dsimp only
  rw [if_pos (Or.inl rfl), follow_of_descend? valid notLink maxLinks leads, List.append_nil]
  exact congrArg some (List.reverse_reverse names)

/-- A path that is read leads to something. -/
theorem isPresent_of_read {space : Workspace} {path : String} {content : List UInt8}
    (h : space.read path = .ok content) : space.isPresent path = true := by
  unfold read at h
  unfold isPresent node? canonical?
  cases located : space.locate path with
  | error fault =>
    rw [located] at h
    cases h
  | ok names =>
    rw [located] at h
    have standing : space.disk.descend? names ≠ none := by
      intro missing
      simp only [bind, Except.bind, missing] at h
      cases h
    exact Option.isSome_iff_ne_none.2 standing

/-- Names that lead to a file from the root of the disk are the path to its content. -/
theorem read_of_descend? {space : Workspace} {content : List UInt8} {names : List String}
    (valid : ∀ name ∈ names, Path.IsName name) (nonempty : names ≠ [])
    (leads : space.disk.descend? names = some (.file content)) :
    space.read ("/" ++ Path.join names) = .ok content := by
  have canonical := canonical?_of_descend? valid nonempty leads fun _ => FileTree.noConfusion
  unfold canonical? at canonical
  unfold read
  cases located : space.locate ("/" ++ Path.join names) with
  | error fault =>
    rw [located] at canonical
    exact absurd canonical.symm (Option.some_ne_none names)
  | ok found =>
    rw [located] at canonical
    have same : found = names := Option.some_inj.1 canonical
    simp only [bind, Except.bind, same, leads]

/-- A disk with one file that holds a text. -/
def holding (name text : String) : Workspace where
  disk := .directory [(name, .file (Text.encodeUtf8 text.toList))]
  directory := []
  input := []

/-- The file's path leads to the text. -/
theorem read_holding {name : String} (valid : Path.IsName name) (text : String) :
    (holding name text).read ("/" ++ name) = .ok (Text.encodeUtf8 text.toList) := by
  have names : ∀ other ∈ [name], Path.IsName other := List.forall_mem_singleton.2 valid
  have leads : (holding name text).disk.descend? [name] =
      some (.file (Text.encodeUtf8 text.toList)) := by
    simp [holding, FileTree.descend?, FileTree.child?, FileTree.entries]
  have path : name = Path.join [name] := by simp [Path.join]
  have read := read_of_descend? names (List.cons_ne_nil name []) leads
  rwa [← path] at read

end Workspace

end CodeDelta
