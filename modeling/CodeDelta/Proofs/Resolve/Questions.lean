import CodeDelta.Proofs.Files.Absolute
import CodeDelta.Proofs.Git.Arguments
import CodeDelta.Resolve.History

/-!
# The questions about a revision

Whatever is replied to them, the questions of a resolution at a revision come in one order: first
the root, then whether the revision names a commit, and about its tree only when it does
(`keeps_recorded`). So no text of the revision or of a path is ever read as an option
(`recorded_guarded`).
-/

namespace CodeDelta.Resolve

open Git

variable {registry : Registry} {options : Options} {checkout : Checkout} {revision : String}
variable {past : List Exchange}

/-- Looking at an outcome asks what the session asks. -/
theorem keeps_observe {α : Type} {session : Session α}
    (h : session.run.Keeps (MayAsk revision) (fun now _ => Checked revision now) past) :
    (recordedFiles.observe session).run.Keeps (MayAsk revision)
      (fun now _ => Checked revision now) past :=
  h.bind fun _ _ reached => reached

/-- The contents of listed files are asked for in the tree of a checked revision, one after another,
also behind one that cannot be read. -/
theorem keeps_recordedFiles (lead : String) (paths : List String)
    (checked : Checked revision past) :
    (recordedFiles registry options checkout revision lead paths).run.Keeps (MayAsk revision)
      (fun now _ => Checked revision now) past := by
  induction paths generalizing past with
  | nil => exact checked
  | cons path rest ih =>
    unfold recordedFiles
    dsimp only
    split_ifs with left
    · exact ih checked
    · refine Session.keeps_bind_always (keeps_observe (Checkout.keeps_blob path checked)) ?_
      intro now content reached
      exact Session.keeps_bind_always (ih reached) fun _ _ later => later

/-- A directory is listed in the tree of a checked revision before its files are asked for. -/
theorem keeps_recordedDirectory (directory label : String) (checked : Checked revision past) :
    (recordedDirectory registry options checkout revision directory label).run.Keeps
      (MayAsk revision) (fun now _ => Checked revision now) past := by
  have below : (recordedBelow registry options checkout revision directory).run.Keeps
      (MayAsk revision) (fun now _ => Checked revision now) past :=
    Session.keeps_bind_always (Checkout.keeps_files directory checked)
      fun _ paths reached => keeps_recordedFiles (leadOf directory) paths reached
  exact Session.keeps_bind_always below fun _ _ reached => reached

/-- A file's content is all that is asked for to analyze it. -/
theorem keeps_recordedFile (path label : String) (checked : Checked revision past) :
    (recordedFile registry checkout revision path label).run.Keeps (MayAsk revision)
      (fun now _ => Checked revision now) past := by
  unfold recordedFile
  refine Session.keeps_bind_always (Checkout.keeps_blob path checked) fun now content reached => ?_
  cases recordedTask? registry path content with
  | none => exact reached
  | some task =>
    have told : (Session.ofExcept (task.bind fun task => task.recordedOutcome label)).run.Keeps
        (MayAsk revision) (fun now _ => Checked revision now) now := reached
    exact Session.keeps_bind_always told fun _ _ later => later

/-- Resolving a path at a revision asks for the root first, then whether the revision names a
commit, and about the tree of that revision only when it does. -/
theorem keeps_recorded (space : Workspace) (path : String) :
    (recorded registry options space revision path).run.Keeps (MayAsk revision) (fun _ _ => True)
      [] := by
  unfold recorded
  refine Session.keeps_bind (Checkout.keeps_discover options.git space path) ?_
    fun _ _ _ => trivial
  intro asked checkout more
  refine Session.keeps_bind (Checkout.keeps_verify more) ?_ fun _ _ _ => trivial
  intro now done found
  have checked : Checked revision now := found rfl
  -- From here on the revision stays checked, whatever is asked.
  suffices stays : Dialogue.Keeps (MayAsk revision) (fun now _ => Checked revision now) _ now from
    stays.weaken fun _ _ _ => trivial
  dsimp only
  split_ifs with whole
  · exact keeps_recordedDirectory "" (labelAt path revision) checked
  · refine Session.keeps_bind_always (Checkout.keeps_entries _ checked) ?_
    intro now entries reached
    match entries with
    | [] => exact reached
    | [entry] =>
      dsimp only
      split_ifs with blob
      · exact keeps_recordedFile entry.path (labelAt path revision) reached
      · exact keeps_recordedDirectory _ _ reached
    | _ :: _ :: _ => exact keeps_recordedDirectory _ _ reached

/-- In every run that resolves a path at a revision, whatever the replies are, the root is asked for
first. In every later command line the program's own words are the same for all revisions and paths,
a revision by itself is not empty and does not start with a dash, neither do the revision's commit
and file, and a path by itself stands behind `--`; so what starts with a dash is one of the
program's own words or stands behind `--`. A tree is read only after the same revision was found to
name a commit. -/
theorem recorded_guarded (registry : Registry) (options : Options) (space : Workspace)
    (revision path : String) {run : List Exchange}
    (h : (recorded registry options space revision path).run.IsRun run) :
    ∃ reply rest, run = (.topLevel, reply) :: rest ∧
      ∀ before query answer after, rest = before ++ (query, answer) :: after →
        query.arguments = query.parts.map Argument.text ∧ Guarded revision query.parts ∧
          (∀ front argument back, query.parts = front ++ argument :: back →
            argument.text.toList.head? = some '-' →
              (∃ text ∈ Query.words, argument = .word text) ∨ .word "--" ∈ front) ∧
          (query.arguments.head? = some "ls-tree" ∨ query.arguments.head? = some "cat-file" →
            ∃ output errors, (.verify revision, .ended 0 output errors) ∈ before) := by
  have keeps : (recorded registry options space revision path).run.Keeps (MayAsk revision)
      (fun _ _ => True) [] := keeps_recorded space path
  obtain ⟨next, first⟩ : ∃ next, (recorded registry options space revision path).run =
      .ask options.git (existingDirectory space path) .topLevel next := ⟨_, rfl⟩
  rw [first] at h keeps
  cases h with
  | ask _ _ _ reply later =>
    refine ⟨reply, _, rfl, fun before query answer after split => ?_⟩
    have may : MayAsk revision ([(.topLevel, reply)] ++ before) query :=
      Dialogue.Keeps.allowed_of_isRun (keeps.2 reply) later split
    refine ⟨query.arguments_eq, may.guarded, fun _ _ _ => may.guarded.word_or_behind, ?_⟩
    intro reads
    obtain ⟨name, about⟩ := Query.exists_treeRevision? reads
    obtain ⟨-, -, output, errors, inside⟩ := (mayAsk_iff_checked about).1 may
    -- The exchange about the root is not the check.
    refine ⟨output, errors, (List.mem_cons.1 inside).resolve_left ?_⟩
    rintro ⟨⟩

/-! ## A path that looks like an option -/

/-- A disk without files. -/
def bareSpace : Workspace := ⟨.directory [], [], []⟩

/-- From the root of the disk, the path of a missing file is its name. -/
theorem relative_bareSpace :
    (Checkout.mk Options.standard.git "/").relative bareSpace "--help" = "--help" := by
  have root : bareSpace.canonical? "/" = some [] :=
    Workspace.canonical?_of_plain_eq_nil (by decide) (by decide) rfl
  have here : bareSpace.canonical? "." = some [] :=
    Workspace.canonical?_of_plain_eq_nil (by decide) (by decide) rfl
  have missing : bareSpace.canonical? "--help" = none := by
    have pieces : Path.pieces "--help" = ["--help".toList] := by decide
    have origin : bareSpace.origin "--help" = [] := by decide
    have bare : bareSpace.disk.descend? [] = some (.directory []) := rfl
    rw [Workspace.canonical?_eq (by decide) (by decide), pieces, origin,
      Workspace.follow_missing bare (by decide) rfl _ []]
    rfl
  have whole : Path.absolutize bareSpace.canonical? "--help" = [.root, .named "--help"] := by
    have parts : Path.components "--help" = [.named "--help"] := by decide
    unfold Path.absolutize
    dsimp only
    rw [if_neg (by decide), parts]
    refine (Path.absolutizeFrom_named missing _ "--help" _ []).trans ?_
    exact Path.absolutizeFrom_found here _ _ _
  unfold Checkout.relative Checkout.rootComponents
  rw [whole, root]
  decide

/-- The exchanges about a path that looks like an option and that the revision does not have. -/
def optionRun : List Exchange :=
  [(.topLevel, .ended 0 (Text.encodeUtf8 ['/', '\n']) []), (.verify "HEAD", .ended 0 [] []),
    (.entries "HEAD" "--help", .ended 0 [] [])]

/-- They are those of a run. -/
theorem isRun_optionRun :
    (recorded .empty .standard bareSpace "HEAD" "--help").run.IsRun optionRun := by
  have root : String.ofList (Text.trim (Text.decodeLossy (Text.encodeUtf8 ['/', '\n']))) = "/" := by
    decide
  refine .ask _ _ _ _ (.ask _ _ _ _ ?_)
  dsimp only [ExceptT.bindCont, ExceptT.mk]
  rw [root, relative_bareSpace, if_neg (by decide)]
  exact .ask _ _ _ _ (.done _)

/-- The path that looks like an option stands behind `--`, and the tree is read after the revision
was checked. -/
theorem recorded_guarded_option :
    (recorded .empty .standard bareSpace "HEAD" "--help").run.IsRun optionRun ∧
      (Query.entries "HEAD" "--help").arguments =
        ["ls-tree", "-z", "--full-tree", "HEAD", "--", "--help"] ∧
      Guarded "HEAD" (Query.entries "HEAD" "--help").parts ∧
      ∃ before after output errors,
        optionRun = before ++ (.entries "HEAD" "--help", .ended 0 [] []) :: after ∧
          (.verify "HEAD", .ended 0 output errors) ∈ before := by
  obtain ⟨reply, rest, same, later⟩ :=
    recorded_guarded .empty .standard bareSpace "HEAD" "--help" isRun_optionRun
  obtain ⟨-, rfl⟩ := List.cons.inj same
  obtain ⟨-, guarded, -, checked⟩ :=
    later [(.verify "HEAD", .ended 0 [] [])] (.entries "HEAD" "--help") _ [] rfl
  obtain ⟨output, errors, inside⟩ := checked (Or.inl rfl)
  exact ⟨isRun_optionRun, rfl, guarded, _, [], output, errors, rfl,
    List.mem_cons_of_mem (.topLevel, .ended 0 (Text.encodeUtf8 ['/', '\n']) []) inside⟩

end CodeDelta.Resolve
