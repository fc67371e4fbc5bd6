import CodeDelta.Git.Checkout
import CodeDelta.Proofs.Files.Absolute
import CodeDelta.Proofs.Files.Workspace

/-!
# Paths inside a work tree

A path is told from the root of its work tree by its absolute form. That form is right as long as
no `..` is missing (`absolutize_iff_no_up_missing`): the path of a file that is gone still names it,
but behind a directory that is gone `..` cannot be followed, and there the path stays as it is
written and loses its `..` without a word.
-/

namespace CodeDelta.Git

namespace Checkout

variable {space : Workspace} {checkout : Checkout} {path : String}

/-- The components of a path behind the root of the work tree, or all of them when the path is not
below the root. -/
def inside (space : Workspace) (checkout : Checkout) (path : String) : List Component :=
  let whole := Path.absolutize space.canonical? path
  (Path.below? whole (checkout.rootComponents space)).getD whole

/-- The path from the root of the work tree is made of the names among these components. -/
theorem relative_eq :
    checkout.relative space path =
      "/".intercalate ((checkout.inside space path).filterMap Component.name?) := rfl

/-- A component behind the root is one of the absolute path. -/
theorem mem_absolutize_of_mem_inside {part : Component} (h : part ∈ checkout.inside space path) :
    part ∈ Path.absolutize space.canonical? path := by
  unfold inside at h
  dsimp only at h
  cases behind : Path.below? (Path.absolutize space.canonical? path)
      (checkout.rootComponents space) with
  | none => rwa [behind] at h
  | some rest =>
    rw [behind] at h
    rw [Path.eq_of_below? behind]
    exact List.mem_append_right _ h

/-- A `..` of the absolute path stands behind the root, when the root can be followed. -/
theorem up_mem_inside (root : (space.canonical? checkout.root).isSome)
    (h : .up ∈ Path.absolutize space.canonical? path) : .up ∈ checkout.inside space path := by
  obtain ⟨names, followed⟩ := Option.isSome_iff_exists.1 root
  have canonical : checkout.rootComponents space = .root :: names.map .named := by
    unfold rootComponents
    rw [followed]
  unfold inside
  dsimp only
  cases behind : Path.below? (Path.absolutize space.canonical? path)
      (checkout.rootComponents space) with
  | none => exact h
  | some rest =>
    rw [Path.eq_of_below? behind, List.mem_append, canonical] at h
    -- No component of the root's canonical form goes up.
    refine h.resolve_left fun up => ?_
    simp at up

end Checkout

/-- Where the root of the disk and the working directory can be followed, a path reaches its longest
start that is found. Its absolute form is where that start leads with the missing components behind
it exactly when no `..` is missing, or when the start is written as where it leads; the form starts
at the root exactly when no `..` is missing, or when the path is absolute; and the path from the
root of a work tree is told of the names among some components, where a `..`, which it leaves out,
stands only when one is missing, and always then when the root can be followed. -/
theorem absolutize_iff_no_up_missing {space : Workspace} (root : (space.canonical? "/").isSome)
    (here : (space.canonical? ".").isSome) (path : String) :
    ∃ front names missing, Path.Reaches space.canonical? path front names missing ∧
      (Path.absolutize space.canonical? path = .root :: names.map .named ++ missing ↔
        .up ∉ missing ∨ front = .root :: names.map .named) ∧
      ((Path.absolutize space.canonical? path).head? = some .root ↔
        .up ∉ missing ∨ Path.isAbsolute path = true) ∧
      ∀ checkout : Checkout,
        checkout.relative space path =
          "/".intercalate ((checkout.inside space path).filterMap Component.name?) ∧
        (.up ∈ checkout.inside space path → .up ∈ missing) ∧
        ((space.canonical? checkout.root).isSome → .up ∈ missing →
          .up ∈ checkout.inside space path) := by
  obtain ⟨front, names, missing, reaches, unnamed⟩ := Workspace.exists_reaches root here path
  refine ⟨front, names, missing, reaches, ?_⟩
  by_cases up : Component.up ∈ missing
  · have whole : Path.absolutize space.canonical? path = Path.components (Path.written path) :=
      reaches.absolutize_of_unnamed up rfl
    have absolute : Path.isAbsolute (Path.written path) = Path.isAbsolute path := by
      unfold Path.written
      split_ifs with empty
      · rw [empty]
        decide
      · rfl
    refine ⟨?_, ?_, fun checkout => ⟨checkout.relative_eq, fun _ => up, fun followed _ => ?_⟩⟩
    · rw [whole, reaches.split, List.append_cancel_right_eq]
      exact ⟨Or.inr, fun h => h.resolve_left (not_not_intro up)⟩
    · rw [whole, Path.head?_components_eq_root_iff, absolute]
      exact ⟨Or.inr, fun h => h.resolve_left (not_not_intro up)⟩
    · refine Checkout.up_mem_inside followed ?_
      rw [whole, reaches.split]
      exact List.mem_append_right front up
  · -- Without a `..`, everything that is missing has a name.
    have named : ∀ part ∈ missing, part.name? ≠ none := fun part inside nameless =>
      up (unnamed part inside nameless ▸ inside)
    obtain ⟨back, rfl⟩ := Path.exists_names named
    have whole := reaches.absolutize_of_named
    have noUp : .up ∉ Path.absolutize space.canonical? path := by
      rw [whole]
      simp
    refine ⟨iff_of_true ?_ (Or.inl up), iff_of_true ?_ (Or.inl up),
      fun checkout => ⟨checkout.relative_eq, ?_, ?_⟩⟩
    · rw [whole, List.map_append, List.cons_append]
    · rw [whole]
      rfl
    · exact fun inside => absurd (Checkout.mem_absolutize_of_mem_inside inside) noUp
    · exact fun _ missing => absurd missing up

/-! ## A directory that is gone -/

/-- A disk with a project of one file, seen from the directory that holds the project. -/
def projectSpace : Workspace where
  disk := .directory [("work", .directory [("proj", .directory [("a.py", .file [])])])]
  directory := ["work"]
  input := []

/-- The root of the disk and the working directory can be followed. -/
theorem canonical?_projectSpace :
    projectSpace.canonical? "/" = some [] ∧ projectSpace.canonical? "." = some ["work"] := by
  exact ⟨Workspace.canonical?_of_plain_eq_nil (by decide) (by decide) rfl,
    Workspace.canonical?_of_plain_eq_nil (by decide) (by decide) rfl⟩

/-- A file of a directory that is gone has an absolute path, and nothing of it is left out of the
path from the root of the work tree. -/
theorem absolutize_iff_no_up_missing_gone :
    (projectSpace.canonical? "/").isSome ∧ (projectSpace.canonical? ".").isSome ∧
      (Path.absolutize projectSpace.canonical? "./proj//gone/a.py").head? = some .root ∧
      .up ∉ (Checkout.mk "git" "/work/proj").inside projectSpace "./proj//gone/a.py" := by
  obtain ⟨root, here⟩ := canonical?_projectSpace
  have root_ : (projectSpace.canonical? "/").isSome := by rw [root]; rfl
  have here_ : (projectSpace.canonical? ".").isSome := by rw [here]; rfl
  obtain ⟨front, names, missing, reaches, -, absolute, inside⟩ :=
    absolutize_iff_no_up_missing root_ here_ "./proj//gone/a.py"
  have noUp : .up ∉ missing := by
    intro up
    have written : .up ∈ Path.components (Path.written "./proj//gone/a.py") := by
      rw [reaches.split]
      exact List.mem_append_right front up
    exact absurd written (by decide)
  exact ⟨root_, here_, absolute.2 (Or.inl noUp), fun up => noUp ((inside _).2.1 up)⟩

/-- What stands behind a name that the project does not have is not found. -/
theorem canonical?_gone {path : String} {rest : List (List Char)}
    (pieces : Path.pieces path = "proj".toList :: "gone".toList :: rest) (filled : path ≠ "")
    (noZero : Char.ofNat 0 ∉ path.toList) (relative_ : Path.isAbsolute path = false) :
    projectSpace.canonical? path = none := by
  have origin : projectSpace.origin path = ["work"] := by
    unfold Workspace.origin
    rw [relative_]
    rfl
  have work : projectSpace.disk.descend? ["work"] =
      some (.directory [("proj", .directory [("a.py", .file [])])]) := rfl
  have project : projectSpace.disk.descend? ["work", "proj"] =
      some (.directory [("a.py", .file [])]) := rfl
  have followed : Workspace.follow projectSpace.disk Workspace.maxLinks ["work"]
      ("proj".toList :: "gone".toList :: rest) = .error .missing := by
    rw [Workspace.follow_entered work (by decide) rfl]
    exact Workspace.follow_missing project (by decide) rfl _ rest
  rw [Workspace.canonical?_eq filled noZero, pieces, origin, followed]
  rfl

/-- Where the root of the disk and the working directory can be followed, the absolute form of a
path with a `..` behind a directory that is gone does not start at the root, and the path from the
root of the work tree is told without the `..`. -/
theorem not_absolute_behind_gone :
    (projectSpace.canonical? "/").isSome ∧ (projectSpace.canonical? ".").isSome ∧
      (projectSpace.canonical? "/work/proj").isSome ∧
      (Path.absolutize projectSpace.canonical? "proj/gone/../a.py").head? ≠ some .root ∧
      (Checkout.mk "git" "/work/proj").relative projectSpace "proj/gone/../a.py" =
        "proj/gone/a.py" := by
  obtain ⟨root, here⟩ := canonical?_projectSpace
  have project : projectSpace.canonical? "/work/proj" = some ["work", "proj"] := by
    have names : "/work/proj" = "/" ++ Path.join ["work", "proj"] := by decide
    rw [names]
    exact Workspace.canonical?_of_descend? (by decide) (List.cons_ne_nil _ _) rfl
      fun _ => FileTree.noConfusion
  have pieces : Path.pieces "proj/gone/../a.py" =
      "proj".toList :: "gone".toList :: ["..".toList, "a.py".toList] := by decide
  have pieces' : Path.pieces "proj/gone/.." =
      "proj".toList :: "gone".toList :: ["..".toList] := by decide
  have file := canonical?_gone pieces (by decide) (by decide) (by decide)
  have parent := canonical?_gone pieces' (by decide) (by decide) (by decide)
  have whole : Path.absolutize projectSpace.canonical? "proj/gone/../a.py" =
      [.named "proj", .named "gone", .up, .named "a.py"] := by
    have parts : Path.components "proj/gone/../a.py" =
        [.named "proj", .named "gone", .up, .named "a.py"] := by decide
    have above : (if [Component.up, .named "gone", .named "proj"].isEmpty then "." else
        Path.ofComponents [Component.up, .named "gone", .named "proj"].reverse) =
        "proj/gone/.." := by decide
    -- The file's name is taken off, and the `..` in front of it is not.
    unfold Path.absolutize
    dsimp only
    rw [if_neg (by decide), parts]
    refine (Path.absolutizeFrom_named file _ "a.py" _ []).trans ?_
    rw [above]
    exact Path.absolutizeFrom_stuck parent _ rfl _ _
  refine ⟨by rw [root]; rfl, by rw [here]; rfl, by rw [project]; rfl, ?_, ?_⟩
  · rw [whole]
    decide
  · unfold Checkout.relative Checkout.rootComponents
    rw [whole]
    dsimp only
    rw [project]
    decide

end CodeDelta.Git
