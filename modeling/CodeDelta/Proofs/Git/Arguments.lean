import CodeDelta.Proofs.Git.Questions

/-!
# The arguments of a question

Where each argument of a command line comes from: it is a word of the program's own, or it is made
of a revision or a path that somebody else wrote. An argument that starts with a dash is read as an
option unless it stands behind `--`; in a question that may be asked about a revision, only the
program's own words can be (`MayAsk.guarded`, `Guarded.word_or_behind`).
-/

namespace CodeDelta.Git

/-- An argument of a command line and where its text comes from. -/
inductive Argument where
  /-- A word of the program's own. -/
  | word (text : String)
  /-- A revision by itself. -/
  | revision (name : String)
  /-- The commit that a revision names. -/
  | commit (name : String)
  /-- A file of a revision's tree. -/
  | file (name below : String)
  /-- A path by itself. -/
  | path (text : String)

/-- The text of an argument. -/
def Argument.text : Argument → String
  | word text => text
  | revision name => name
  | commit name => name ++ "^\x7bcommit\x7d"
  | file name below => name ++ ":" ++ below
  | path text => text

namespace Query

/-- The arguments ahead of the paths. -/
def ahead : Query → List Argument
  | topLevel => [.word "rev-parse", .word "--show-toplevel"]
  | verify revision => [.word "rev-parse", .word "--verify", .word "--quiet", .commit revision]
  | entries revision _ =>
    [.word "ls-tree", .word "-z", .word "--full-tree", .revision revision]
  | files revision _ =>
    [.word "ls-tree", .word "-r", .word "-z", .word "--full-tree", .word "--name-only",
      .revision revision]
  | blob revision path => [.word "cat-file", .word "blob", .file revision path]

/-- The path that is an argument by itself. -/
def path? : Query → Option String
  | entries _ path => some path
  | files _ path => if path = "" then none else some path
  | topLevel | verify _ | blob _ _ => none

/-- The arguments of a question's command line. -/
def parts (query : Query) : List Argument :=
  query.ahead ++ query.path?.elim [] fun path => [.word "--", .path path]

/-- The command line is made of the texts of its arguments. -/
theorem arguments_eq (query : Query) : query.arguments = query.parts.map Argument.text := by
  cases query with
  | files revision path =>
    unfold parts arguments path?
    dsimp only
    split_ifs <;> rfl
  | _ => rfl

/-- The words of the program's own. -/
def words : List String :=
  ["rev-parse", "--show-toplevel", "--verify", "--quiet", "ls-tree", "-r", "-z", "--full-tree",
    "--name-only", "--", "cat-file", "blob"]

/-- Whether an argument stands in a question for what it says: a word is the program's own, a commit
is the one that is checked, and a revision is the one whose tree is asked about. -/
def Holds (query : Query) : Argument → Prop
  | .word text => text ∈ words
  | .commit name => query = verify name
  | .revision name | .file name _ => query.treeRevision? = some name
  | .path _ => True

/-- The arguments of a question stand for what they say. -/
theorem holds_of_mem {query : Query} : ∀ argument ∈ query.parts, query.Holds argument := by
  have front : ∀ argument ∈ query.ahead, query.Holds argument := by
    cases query <;> simp [ahead, Holds, words, treeRevision?]
  unfold parts
  rw [List.forall_mem_append]
  refine ⟨front, ?_⟩
  cases query.path? with
  | none => exact List.forall_mem_nil _
  | some path => simp [Holds, words]

/-- A path by itself stands behind `--`. -/
theorem mark_mem_front {query : Query} {path : String} {front back : List Argument}
    (split : query.parts = front ++ .path path :: back) : .word "--" ∈ front := by
  have noPath : .path path ∉ query.ahead := by
    cases query <;> simp [ahead]
  unfold parts at split
  cases only : query.path? with
  | none =>
    rw [only, Option.elim_none, List.append_nil] at split
    exact absurd (split ▸ List.mem_append_right front List.mem_cons_self) noPath
  | some other =>
    have unmarked : .path path ∉ query.ahead ++ [.word "--"] := by
      rw [List.mem_append, not_or]
      exact ⟨noPath, by simp⟩
    -- The path can only be the last argument, so everything else stands in front of it.
    have split_ : (query.ahead ++ [.word "--"]) ++ .path other :: [] =
        front ++ .path path :: back := by
      rw [only] at split
      rwa [List.append_assoc]
    obtain ⟨rfl, -⟩ :=
      (List.append_cons_inj_of_notMem unmarked List.not_mem_nil).1 split_
    exact List.mem_append_right _ List.mem_cons_self

/-- A command that reads a tree is a question about the tree of a revision. -/
theorem exists_treeRevision? {query : Query}
    (reads : query.arguments.head? = some "ls-tree" ∨ query.arguments.head? = some "cat-file") :
    ∃ name, query.treeRevision? = some name := by
  cases query with
  | topLevel | verify revision =>
    have other : some "rev-parse" = some "ls-tree" ∨ some "rev-parse" = some "cat-file" := reads
    exact absurd other (by decide)
  | entries revision path | files revision path | blob revision path => exact ⟨revision, rfl⟩

end Query

/-- Whether no text of a revision or a path can be read as an option in a command line about a
revision. -/
structure Guarded (revision : String) (parts : List Argument) : Prop where
  /-- The words are the program's own. -/
  words : ∀ text, .word text ∈ parts → text ∈ Query.words
  /-- A revision by itself is not empty and does not start with a dash. -/
  revisions : ∀ name, .revision name ∈ parts →
    name = revision ∧ name ≠ "" ∧ name.toList.head? ≠ some '-'
  /-- The commit of a revision does not start with a dash. -/
  commits : ∀ name, .commit name ∈ parts →
    name = revision ∧ (Argument.commit name).text.toList.head? ≠ some '-'
  /-- The file of a revision does not start with a dash. -/
  files : ∀ name below, .file name below ∈ parts →
    name = revision ∧ (Argument.file name below).text.toList.head? ≠ some '-'
  /-- A path by itself stands behind `--`. -/
  paths : ∀ front path back, parts = front ++ .path path :: back → .word "--" ∈ front

variable {revision : String}

/-- An argument that starts with a dash is a word of the program's own or stands behind `--`. -/
theorem Guarded.word_or_behind {parts front back : List Argument} (h : Guarded revision parts)
    {argument : Argument} (split : parts = front ++ argument :: back)
    (dash : argument.text.toList.head? = some '-') :
    (∃ text ∈ Query.words, argument = .word text) ∨ .word "--" ∈ front := by
  have inside : argument ∈ parts := split ▸ List.mem_append_right front List.mem_cons_self
  cases argument with
  | word text => exact Or.inl ⟨text, h.words text inside, rfl⟩
  | revision name => exact absurd dash (h.revisions name inside).2.2
  | commit name => exact absurd dash (h.commits name inside).2
  | file name below => exact absurd dash (h.files name below inside).2
  | path text => exact Or.inr (h.paths front text back split)

/-- What is written behind a revision that is passed on does not make it start with a dash. -/
theorem IsPassedOn.head?_append (h : IsPassedOn revision) (more : String) :
    (revision ++ more).toList.head? ≠ some '-' := by
  obtain ⟨filled, noDash⟩ := h
  rw [String.toList_append]
  cases chars : revision.toList with
  | nil => exact absurd (String.toList_inj.1 chars) filled
  | cons first rest => rwa [chars] at noDash

variable {past : List Exchange} {query : Query}

/-- The arguments of a question that may be asked about a revision are guarded. -/
theorem MayAsk.guarded (h : MayAsk revision past query) : Guarded revision query.parts where
  words _ inside := Query.holds_of_mem _ inside
  revisions name inside := by
    obtain ⟨rfl, passed, -⟩ := (mayAsk_iff_checked (Query.holds_of_mem _ inside)).1 h
    exact ⟨rfl, passed⟩
  commits name inside := by
    obtain rfl : query = .verify name := Query.holds_of_mem _ inside
    obtain ⟨rfl, passed, -⟩ := h
    exact ⟨rfl, passed.head?_append _⟩
  files name below inside := by
    obtain ⟨rfl, passed, -⟩ := (mayAsk_iff_checked (Query.holds_of_mem _ inside)).1 h
    refine ⟨rfl, ?_⟩
    change (name ++ ":" ++ below).toList.head? ≠ some '-'
    rw [String.append_assoc]
    exact passed.head?_append _
  paths _ _ _ split := Query.mark_mem_front split

end CodeDelta.Git
