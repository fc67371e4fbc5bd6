import CodeDelta.Files.Workspace
import CodeDelta.Proofs.Files.Tags
import Mathlib.Data.List.Induction

/-!
# Absolute paths

A path is looked up as it is written, and then start by start, each shorter by one component, down
to the root or the working directory. It reaches as far as the first start that is found
(`Reaches`), and what is missing behind that start are components of the path. A name is taken off
at each step (`absolutizeFrom_names`), so a path that misses names only is made absolute
(`Reaches.absolutize_of_named`); a missing `..` cannot be taken off, and the path stays as it is
written (`Reaches.absolutize_of_unnamed`).

In a workspace whose root and working directory can be followed, every path reaches somewhere
(`Workspace.exists_reaches`): slashes and dots that stand for nothing lead nowhere else.
-/

namespace CodeDelta

namespace Path

/-- A path as it is looked up; the empty one is the working directory. -/
def written (path : String) : String := if path = "" then "." else path

/-- How a start of a path is looked up: all of it as it is written, no component at all as the
working directory. -/
def startText (path : String) (front : List Component) : String :=
  if front = components (written path) then written path
  else if front = [] then "." else ofComponents front

/-- How far a path leads: `front` is its longest start that is found, `names` lead to what it is
found at, and `missing` is the rest of the path. -/
structure Reaches (canonical : String → Option (List String)) (path : String)
    (front : List Component) (names : List String) (missing : List Component) : Prop where
  /-- The rest follows the start. -/
  split : components (written path) = front ++ missing
  /-- The start is found. -/
  found : canonical (startText path front) = some names
  /-- No longer start is found. -/
  longest : ∀ more rest, missing = more ++ rest → more ≠ [] →
    canonical (startText path (front ++ more)) = none

variable {canonical : String → Option (List String)} {path : String}

/-! ## One start after another -/

/-- All components are looked up as they are written. -/
theorem startText_whole : startText path (components (written path)) = written path := if_pos rfl

/-- What is looked up when the last name is taken off. -/
theorem startText_of_ne {front : List Component} (shorter : front ≠ components (written path)) :
    startText path front = if front.reverse.isEmpty then "." else ofComponents front := by
  unfold startText
  rw [if_neg shorter]
  simp only [List.isEmpty_reverse, List.isEmpty_iff]

/-- A start that is found is the front of the absolute path. -/
theorem absolutizeFrom_found {text : String} {names : List String} (h : canonical text = some names)
    (whole parts : List Component) (missing : List String) :
    absolutizeFrom canonical whole text parts missing =
      .root :: (names ++ missing).map .named := by
  unfold absolutizeFrom
  rw [h]

/-- A name is taken off a start that is not found. -/
theorem absolutizeFrom_named {text : String} (h : canonical text = none) (whole : List Component)
    (name : String) (rest : List Component) (missing : List String) :
    absolutizeFrom canonical whole text (.named name :: rest) missing =
      absolutizeFrom canonical whole (if rest.isEmpty then "." else ofComponents rest.reverse) rest
        (name :: missing) := by
  conv_lhs => unfold absolutizeFrom
  rw [h]

/-- Where no name can be taken off, the path stays as it is. -/
theorem absolutizeFrom_stuck {text : String} (h : canonical text = none) (whole : List Component)
    {part : Component} (unnamed : part.name? = none) (rest : List Component)
    (missing : List String) :
    absolutizeFrom canonical whole text (part :: rest) missing = whole := by
  unfold absolutizeFrom
  rw [h]
  cases part with
  | named name => exact absurd unnamed (Option.some_ne_none name)
  | root => rfl
  | here => rfl
  | up => rfl

/-- Names are taken off one after another as long as nothing is found. -/
theorem absolutizeFrom_names {whole base after : List Component} {back : List String}
    (split : components (written path) = base ++ back.map .named ++ after)
    (absent : ∀ more rest, back = more ++ rest → more ≠ [] →
      canonical (startText path (base ++ more.map .named)) = none) (missing : List String) :
    absolutizeFrom canonical whole (startText path (base ++ back.map .named))
        (base ++ back.map Component.named).reverse missing =
      absolutizeFrom canonical whole (startText path base) base.reverse (back ++ missing) := by
  induction back using List.reverseRecOn generalizing after missing with
  | nil => rw [List.map_nil, List.append_nil, List.nil_append]
  | append_singleton init last ih =>
    have notFound := absent (init ++ [last]) [] (List.append_nil _).symm
      (List.append_ne_nil_of_right_ne_nil init (List.cons_ne_nil last []))
    have reversed : (base ++ (init ++ [last]).map Component.named).reverse =
        .named last :: (base ++ init.map Component.named).reverse := by
      rw [List.map_append, ← List.append_assoc, List.map_singleton, List.reverse_concat]
    have shorter : base ++ init.map Component.named ≠ components (written path) := by
      rw [split]
      intro same
      have lengths := congrArg List.length same
      simp only [List.length_append, List.length_map, List.length_singleton] at lengths
      omega
    have split' : components (written path) =
        base ++ init.map Component.named ++ (.named last :: after) := by
      rw [split, List.map_append, List.map_singleton]
      simp only [List.append_assoc, List.singleton_append]
    have earlier := ih split'
      (fun more rest h filled => absent more (rest ++ [last]) (by rw [h, List.append_assoc]) filled)
      (last :: missing)
    rw [reversed, absolutizeFrom_named notFound, List.reverse_reverse, ← startText_of_ne shorter,
      earlier, List.append_assoc, List.singleton_append]

/-! ## Names and other components -/

/-- Components that all have names are named by them. -/
theorem exists_names {parts : List Component} (h : ∀ part ∈ parts, part.name? ≠ none) :
    ∃ names : List String, parts = names.map .named := by
  induction parts with
  | nil => exact ⟨[], rfl⟩
  | cons part rest ih =>
    obtain ⟨names, rfl⟩ := ih fun other inside => h other (List.mem_cons_of_mem part inside)
    have first := h part List.mem_cons_self
    cases part with
    | named name => exact ⟨name :: names, rfl⟩
    | root => exact absurd rfl first
    | here => exact absurd rfl first
    | up => exact absurd rfl first

/-- Behind the last component without a name there are only names. -/
theorem exists_last_unnamed {parts : List Component} {part : Component} (inside : part ∈ parts)
    (unnamed : part.name? = none) :
    ∃ before last, ∃ names : List String, parts = before ++ last :: names.map .named ∧
      last.name? = none := by
  induction parts generalizing part with
  | nil => exact absurd inside List.not_mem_nil
  | cons first rest ih =>
    by_cases later : ∃ other ∈ rest, other.name? = none
    · obtain ⟨other, inside', unnamed'⟩ := later
      obtain ⟨before, last, names, rfl, h⟩ := ih inside' unnamed'
      exact ⟨first :: before, last, names, rfl, h⟩
    · have named : ∀ other ∈ rest, other.name? ≠ none :=
        fun other inside' unnamed' => later ⟨other, inside', unnamed'⟩
      have here : part = first :=
        (List.mem_cons.1 inside).resolve_right fun inside' => named part inside' unnamed
      obtain ⟨names, rfl⟩ := exists_names named
      exact ⟨[], first, names, rfl, here ▸ unnamed⟩

/-! ## The absolute form -/

/-- The absolute form is looked for from the whole path on. -/
theorem absolutize_eq :
    absolutize canonical path =
      absolutizeFrom canonical (components (written path))
        (startText path (components (written path))) (components (written path)).reverse [] := by
  rw [startText_whole]
  rfl

/-- A path that misses names only is made absolute: the names that lead to its longest start that
is found, and the missing ones. -/
theorem Reaches.absolutize_of_named {front : List Component} {names back : List String}
    (h : Reaches canonical path front names (back.map .named)) :
    absolutize canonical path = .root :: (names ++ back).map .named := by
  have split : components (written path) = front ++ back.map .named ++ [] := by
    rw [h.split, List.append_nil]
  have absent : ∀ more rest, back = more ++ rest → more ≠ [] →
      canonical (startText path (front ++ more.map .named)) = none := by
    intro more rest parts filled
    refine h.longest (more.map .named) (rest.map .named) ?_ (mt List.map_eq_nil_iff.1 filled)
    rw [parts, List.map_append]
  calc absolutize canonical path
    _ = absolutizeFrom canonical (components (written path))
        (startText path (front ++ back.map .named))
        (front ++ back.map Component.named).reverse [] := by
      rw [absolutize_eq, ← h.split]
    _ = absolutizeFrom canonical (components (written path)) (startText path front) front.reverse
        (back ++ []) := absolutizeFrom_names split absent []
    _ = .root :: (names ++ back).map .named := by
      rw [absolutizeFrom_found h.found, List.append_nil]

/-- A path that misses a component without a name stays as it is written. -/
theorem Reaches.absolutize_of_unnamed {front missing : List Component} {names : List String}
    (h : Reaches canonical path front names missing) {part : Component} (inside : part ∈ missing)
    (unnamed : part.name? = none) : absolutize canonical path = components (written path) := by
  obtain ⟨before, last, back, rfl, stuck⟩ := exists_last_unnamed inside unnamed
  -- The names behind the last component without one are taken off, and that one is not.
  have split : components (written path) = front ++ before ++ [last] ++ back.map .named ++ [] := by
    rw [h.split]
    simp only [List.append_assoc, List.append_nil, List.singleton_append]
  have absent : ∀ more rest, back = more ++ rest →
      canonical (startText path (front ++ before ++ [last] ++ more.map .named)) = none := by
    intro more rest parts
    have longer := h.longest (before ++ [last] ++ more.map .named) (rest.map .named)
      (by simp only [parts, List.map_append, List.append_assoc, List.cons_append, List.nil_append])
      (by simp)
    simpa only [List.append_assoc] using longer
  calc absolutize canonical path
    _ = absolutizeFrom canonical (components (written path))
        (startText path (front ++ before ++ [last] ++ back.map .named))
        (front ++ before ++ [last] ++ back.map Component.named).reverse [] := by
      rw [absolutize_eq, split, List.append_nil]
    _ = absolutizeFrom canonical (components (written path))
        (startText path (front ++ before ++ [last])) (front ++ before ++ [last]).reverse
        (back ++ []) :=
      absolutizeFrom_names split (fun more rest parts _ => absent more rest parts) []
    _ = components (written path) := by
      have here := absent [] back rfl
      rw [List.map_nil, List.append_nil] at here
      rw [List.reverse_concat]
      exact absolutizeFrom_stuck here _ stuck _ _

/-- A path reaches somewhere when a start of it is found. -/
theorem exists_reaches_of_found {front back : List Component}
    (split : components (written path) = front ++ back)
    (found : (canonical (startText path front)).isSome) :
    ∃ more names missing, back = more ++ missing ∧
      Reaches canonical path (front ++ more) names missing := by
  -- The longest start that is found is looked for from the end of a start of the path.
  have shorter : ∀ candidates rest, back = candidates ++ rest →
      (∀ more last, rest = more ++ last → more ≠ [] →
        canonical (startText path (front ++ candidates ++ more)) = none) →
      ∃ more names missing, back = more ++ missing ∧
        Reaches canonical path (front ++ more) names missing := by
    intro candidates
    induction candidates using List.reverseRecOn with
    | nil =>
      intro rest whole longest
      obtain ⟨names, names_eq⟩ := Option.isSome_iff_exists.1 found
      refine ⟨[], names, rest, whole, ?_, ?_, longest⟩
      · rw [split, whole, List.append_nil]
        rfl
      · rw [List.append_nil]
        exact names_eq
    | append_singleton init last ih =>
      intro rest whole longest
      cases there : canonical (startText path (front ++ (init ++ [last]))) with
      | some names =>
        refine ⟨init ++ [last], names, rest, whole, ?_, there, longest⟩
        rw [split, whole]
        simp only [List.append_assoc]
      | none =>
        have whole_ : back = init ++ last :: rest := by
          rw [whole, List.append_assoc]
          rfl
        refine ih (last :: rest) whole_ fun more tail cut filled => ?_
        obtain ⟨next, others, rfl⟩ := List.exists_cons_of_ne_nil filled
        rw [List.cons_append] at cut
        obtain ⟨first, behind⟩ := List.cons.inj cut
        rw [← first]
        by_cases alone : others = []
        · rw [alone, List.append_assoc]
          exact there
        · have further := longest others tail behind alone
          simpa only [List.append_assoc, List.singleton_append] using further
  refine shorter back [] (List.append_nil back).symm fun more last cut filled => ?_
  exact absurd (List.append_eq_nil_iff.1 cut.symm).1 filled

/-- A path without plain components is made of pieces that stand for nothing. -/
theorem blank_of_plain_eq_nil (h : plain path = []) :
    ∀ piece ∈ pieces path, piece = [] ∨ piece = ['.'] := by
  intro piece inside
  have read : Component.ofPiece? piece = none := List.filterMap_eq_nil_iff.1 h piece inside
  by_contra filled
  unfold Component.ofPiece? at read
  rw [if_neg filled] at read
  split_ifs at read

/-- A path without plain components holds no zero. -/
theorem zero_not_mem_of_plain_eq_nil (h : plain path = []) : Char.ofNat 0 ∉ path.toList := by
  intro zero
  obtain ⟨piece, inside, hc⟩ := Text.exists_piece_of_mem zero (show Char.ofNat 0 ≠ '/' by decide)
  rcases blank_of_plain_eq_nil h piece inside with rfl | rfl
  · exact absurd hc List.not_mem_nil
  · exact absurd hc (by decide)

/-- A path as it is looked up is not empty. -/
theorem written_ne_empty : written path ≠ "" := by
  unfold written
  split_ifs with empty
  · decide
  · exact empty

end Path

namespace Workspace

variable {space : Workspace}

/-- A path is followed only from a directory. -/
theorem exists_directory_of_follow {disk : FileTree} {links : ℕ} {here result : List String}
    {piece : List Char} {rest : List (List Char)}
    (h : follow disk links here (piece :: rest) = .ok result) :
    ∃ entries, disk.descend? here.reverse = some (.directory entries) := by
  rw [follow] at h
  cases standing : disk.descend? here.reverse with
  | none => simp [standing] at h
  | some node =>
    cases node with
    | directory entries => exact ⟨entries, rfl⟩
    | file content => simp [standing] at h
    | link target => simp [standing] at h

/-- Pieces that stand for nothing lead nowhere else. -/
theorem follow_blank {disk : FileTree} {entries : List (String × FileTree)} {here : List String}
    (standing : disk.descend? here.reverse = some (.directory entries)) (links : ℕ)
    {pieces : List (List Char)} (h : ∀ piece ∈ pieces, piece = [] ∨ piece = ['.']) :
    follow disk links here pieces = .ok here := by
  induction pieces with
  | nil => rw [follow]
  | cons piece rest ih =>
    rw [follow, standing]
    dsimp only
    rw [if_pos (h piece List.mem_cons_self)]
    exact ih fun other inside => h other (List.mem_cons_of_mem piece inside)

/-- A name that a directory does not have leads nowhere, whatever follows it. -/
theorem follow_missing {disk : FileTree} {entries : List (String × FileTree)} {here : List String}
    (standing : disk.descend? here.reverse = some (.directory entries)) {name : String}
    (valid : Path.IsPart name) (absent : entries.lookup name = none) (links : ℕ)
    (rest : List (List Char)) : follow disk links here (name.toList :: rest) = .error .missing := by
  obtain ⟨filled, notHere, notUp⟩ := valid.toList_ne
  rw [follow, standing]
  dsimp only
  rw [if_neg (not_or.2 ⟨filled, notHere⟩), if_neg notUp, String.ofList_toList, absent]

/-- The name of a directory is entered. -/
theorem follow_entered {disk : FileTree} {entries inner : List (String × FileTree)}
    {here : List String} (standing : disk.descend? here.reverse = some (.directory entries))
    {name : String} (valid : Path.IsPart name)
    (entry : entries.lookup name = some (.directory inner))
    (links : ℕ) (rest : List (List Char)) :
    follow disk links here (name.toList :: rest) = follow disk links (name :: here) rest := by
  obtain ⟨filled, notHere, notUp⟩ := valid.toList_ne
  rw [follow, standing]
  dsimp only
  rw [if_neg (not_or.2 ⟨filled, notHere⟩), if_neg notUp, String.ofList_toList, entry]

/-- The names, last one first, that lead to where a path is followed from. -/
def origin (space : Workspace) (path : String) : List String :=
  if Path.isAbsolute path then [] else space.directory.reverse

/-- A path is followed from its origin, unless it is empty or holds a zero. -/
theorem canonical?_eq {path : String} (filled : path ≠ "") (noZero : Char.ofNat 0 ∉ path.toList) :
    space.canonical? path =
      ((follow space.disk maxLinks (space.origin path) (Path.pieces path)).map
        List.reverse).toOption := by
  unfold canonical? locate
  rw [if_neg filled, if_neg (mt List.contains_iff_mem.1 noZero)]
  rfl

/-- The origin of a path that is found is a directory. -/
theorem exists_directory_of_canonical? {path : String} (filled : path ≠ "")
    (noZero : Char.ofNat 0 ∉ path.toList) (h : (space.canonical? path).isSome) :
    ∃ entries, space.disk.descend? (space.origin path).reverse = some (.directory entries) := by
  obtain ⟨piece, rest, pieces⟩ := List.exists_cons_of_ne_nil (Path.pieces_ne_nil path)
  rw [canonical?_eq filled noZero, pieces] at h
  cases followed : follow space.disk maxLinks (space.origin path) (piece :: rest) with
  | error fault =>
    rw [followed] at h
    exact absurd h Bool.false_ne_true
  | ok result => exact exists_directory_of_follow followed

/-- A path without plain components leads to its origin, when that is a directory. -/
theorem canonical?_of_plain_eq_nil {path : String} {entries : List (String × FileTree)}
    (filled : path ≠ "") (h : Path.plain path = [])
    (standing : space.disk.descend? (space.origin path).reverse = some (.directory entries)) :
    space.canonical? path = some (space.origin path).reverse := by
  rw [canonical?_eq filled (Path.zero_not_mem_of_plain_eq_nil h),
    follow_blank standing maxLinks (Path.blank_of_plain_eq_nil h)]
  rfl

/-- Where the root and the working directory are found, every path reaches somewhere, and names and
`..` are all that it can miss. -/
theorem exists_reaches (root : (space.canonical? "/").isSome) (here : (space.canonical? ".").isSome)
    (path : String) :
    ∃ front names missing, Path.Reaches space.canonical? path front names missing ∧
      ∀ part ∈ missing, part.name? = none → part = .up := by
  have filled : Path.written path ≠ "" := Path.written_ne_empty
  obtain ⟨entries, standing⟩ : ∃ entries,
      space.disk.descend? (space.origin (Path.written path)).reverse =
        some (.directory entries) := by
    rcases Path.start_cases (Path.written path) with ⟨absolute, -⟩ | ⟨relative_, -⟩
    · have origin : space.origin (Path.written path) = space.origin "/" := by
        unfold origin
        rw [absolute, show Path.isAbsolute "/" = true by decide]
      rw [origin]
      exact exists_directory_of_canonical? (by decide) (by decide) root
    · have origin : space.origin (Path.written path) = space.origin "." := by
        unfold origin
        rw [relative_, show Path.isAbsolute "." = false by decide]
      rw [origin]
      exact exists_directory_of_canonical? (by decide) (by decide) here
  have found : (space.canonical?
      (Path.startText path (Path.start (Path.written path)))).isSome := by
    by_cases blank : Path.plain (Path.written path) = []
    · have whole : Path.start (Path.written path) = Path.components (Path.written path) := by
        rw [Path.components_eq, blank, List.append_nil]
      rw [whole, Path.startText_whole, canonical?_of_plain_eq_nil filled blank standing]
      rfl
    · have shorter : Path.start (Path.written path) ≠ Path.components (Path.written path) := by
        rw [Path.components_eq, ne_eq, List.self_eq_append_right]
        exact blank
      rw [Path.startText_of_ne shorter]
      rcases Path.start_cases (Path.written path) with ⟨-, start⟩ | ⟨-, start | start⟩
      · rw [start]
        exact root
      · rw [start]
        exact here
      · rw [start]
        exact here
  obtain ⟨more, names, missing, cut, reaches⟩ := Path.exists_reaches_of_found
    (Path.components_eq (Path.written path)) found
  refine ⟨_, names, missing, reaches, fun part inside unnamed => ?_⟩
  have member : part ∈ Path.plain (Path.written path) := by
    rw [cut]
    exact List.mem_append_right more inside
  exact Path.eq_up_of_mem_plain member unnamed

end Workspace

end CodeDelta
