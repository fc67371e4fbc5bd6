import CodeDelta.Git.Checkout
import Mathlib.Data.List.Basic

/-!
# The questions of a run

In a run every question may get any reply, and another one each time it is put (`Dialogue.IsRun`).
What a dialogue asks is told by a rule that says which question may follow which exchanges, and by
what holds where the dialogue ends (`Dialogue.Keeps`): dialogues are put together with their rules
(`Dialogue.Keeps.bind`), and every question of every run obeys them
(`Dialogue.Keeps.allowed_of_isRun`). The rule here is that of a checked revision: nothing is asked
about a tree before its revision was found to name a commit (`MayAsk`).
-/

namespace CodeDelta.Git

/-- A question and the reply that it got. -/
abbrev Exchange := Query × Reply

namespace Dialogue

variable {α β : Type} {allowed : List Exchange → Query → Prop}

/-- The exchanges of a run from its first question to its end. -/
inductive IsRun : Dialogue α → List Exchange → Prop
  /-- A program that only ends asks nothing. -/
  | done (result : α) : IsRun (.done result) []
  /-- A question gets some reply, and the program goes on with it. -/
  | ask (program directory : String) (query : Query) {next : Reply → Dialogue α} (reply : Reply)
      {rest : List Exchange} (later : IsRun (next reply) rest) :
      IsRun (.ask program directory query next) ((query, reply) :: rest)

/-- Where a function answers the questions, they and their replies are those of a run. -/
theorem isRun_trace (answer : String → String → Query → Reply) (dialogue : Dialogue α) :
    dialogue.IsRun (dialogue.trace answer) := by
  induction dialogue with
  | done result => exact .done result
  | ask program directory query next ih => exact .ask program directory query _ (ih _)

/-- Whether every question of a program is allowed after what was exchanged before it, whatever the
replies are, and the program ends as it should. -/
def Keeps (allowed : List Exchange → Query → Prop) (ends : List Exchange → α → Prop) :
    Dialogue α → List Exchange → Prop
  | .done result, past => ends past result
  | .ask _ _ query next, past =>
    allowed past query ∧ ∀ reply, (next reply).Keeps allowed ends (past ++ [(query, reply)])

/-- One program after another keeps what each of them keeps. -/
theorem Keeps.bind {mid : List Exchange → α → Prop} {ends : List Exchange → β → Prop}
    {dialogue : Dialogue α} {next : α → Dialogue β} {past : List Exchange}
    (first : dialogue.Keeps allowed mid past)
    (later : ∀ past result, mid past result → (next result).Keeps allowed ends past) :
    (dialogue.bind next).Keeps allowed ends past := by
  induction dialogue generalizing past with
  | done result => exact later past result first
  | ask program directory query rest ih => exact ⟨first.1, fun reply => ih reply (first.2 reply)⟩

/-- A program that ends as it should ends as a weaker rule says. -/
theorem Keeps.weaken {ends weaker : List Exchange → α → Prop} {dialogue : Dialogue α}
    {past : List Exchange} (keeps : dialogue.Keeps allowed ends past)
    (h : ∀ past result, ends past result → weaker past result) :
    dialogue.Keeps allowed weaker past := by
  induction dialogue generalizing past with
  | done result => exact h past result keeps
  | ask program directory query next ih => exact ⟨keeps.1, fun reply => ih reply (keeps.2 reply)⟩

/-- Every question of a run is allowed after the exchanges before it. -/
theorem Keeps.allowed_of_isRun {ends : List Exchange → α → Prop} {dialogue : Dialogue α}
    {past run : List Exchange} (keeps : dialogue.Keeps allowed ends past) (h : dialogue.IsRun run)
    {before after : List Exchange} {query : Query} {reply : Reply}
    (split : run = before ++ (query, reply) :: after) : allowed (past ++ before) query := by
  induction h generalizing past before with
  | done result => exact absurd split (by simp)
  | ask program directory asked answer later ih =>
    cases before with
    | nil =>
      obtain ⟨same, -⟩ := List.cons.inj split
      obtain ⟨rfl, -⟩ := Prod.mk.inj same
      rw [List.append_nil]
      exact keeps.1
    | cons exchange before =>
      obtain ⟨rfl, behind⟩ := List.cons.inj split
      have allowed_ := ih (keeps.2 answer) behind
      rwa [List.append_assoc, List.singleton_append] at allowed_

end Dialogue

namespace Session

variable {α β : Type} {allowed : List Exchange → Query → Prop} {past : List Exchange}

/-- One session after another; a failure ends both. -/
theorem keeps_bind {mid : List Exchange → Except Failure α → Prop}
    {ends : List Exchange → Except Failure β → Prop} {session : Session α} {next : α → Session β}
    (first : session.run.Keeps allowed mid past)
    (later : ∀ past result, mid past (.ok result) → (next result).run.Keeps allowed ends past)
    (failed : ∀ past failure, mid past (.error failure) → ends past (.error failure)) :
    (session >>= next).run.Keeps allowed ends past := by
  rw [ExceptT.run_bind]
  refine Dialogue.Keeps.bind first fun past outcome reached => ?_
  cases outcome with
  | ok result => exact later past result reached
  | error failure => exact failed past failure reached

/-- One session after another keeps what holds however the first one ends. -/
theorem keeps_bind_always {holds : List Exchange → Prop} {session : Session α}
    {next : α → Session β} (first : session.run.Keeps allowed (fun past _ => holds past) past)
    (later : ∀ past result, holds past →
      (next result).run.Keeps allowed (fun past _ => holds past) past) :
    (session >>= next).run.Keeps allowed (fun past _ => holds past) past :=
  keeps_bind first later fun _ _ reached => reached

end Session

/-! ## Checked revisions -/

/-- Whether a revision is passed on at all: it is not empty and does not start with a dash. -/
def IsPassedOn (revision : String) : Prop := revision ≠ "" ∧ revision.toList.head? ≠ some '-'

/-- Whether a revision was found to name a commit. -/
def Verified (revision : String) (past : List Exchange) : Prop :=
  ∃ output errors, (Query.verify revision, Reply.ended 0 output errors) ∈ past

/-- The revision whose tree a question is about. -/
def Query.treeRevision? : Query → Option String
  | .topLevel | .verify _ => none
  | .entries revision _ | .files revision _ | .blob revision _ => some revision

/-- What may be asked about a revision after some exchanges: first of all the root, then whether the
revision names a commit, and its tree only when it does. -/
def MayAsk (revision : String) (past : List Exchange) : Query → Prop
  | .topLevel => past = []
  | .verify other => other = revision ∧ IsPassedOn revision ∧ past ≠ []
  | .entries other _ | .files other _ | .blob other _ =>
    other = revision ∧ IsPassedOn revision ∧ Verified revision past

/-- Whether the revision is passed on and was found to name a commit. -/
def Checked (revision : String) (past : List Exchange) : Prop :=
  IsPassedOn revision ∧ Verified revision past

variable {revision : String} {past : List Exchange}

/-- A checked revision stays checked. -/
theorem Checked.append (h : Checked revision past) (more : List Exchange) :
    Checked revision (past ++ more) := by
  obtain ⟨passed, output, errors, inside⟩ := h
  exact ⟨passed, output, errors, List.mem_append_left more inside⟩

/-- A tree may be asked about when it is that of the checked revision. -/
theorem mayAsk_iff_checked {query : Query} {name : String}
    (about : query.treeRevision? = some name) :
    MayAsk revision past query ↔ name = revision ∧ Checked revision past := by
  cases query with
  | topLevel | verify other => exact absurd about.symm (Option.some_ne_none name)
  | entries other path | files other path | blob other path =>
    obtain rfl := Option.some.inj about
    exact Iff.rfl

namespace Checkout

variable {allowed : List Exchange → Query → Prop} {checkout : Checkout}

/-- A question that is put in the root of a work tree is the only one, and what comes of it is the
reply. -/
theorem keeps_ask {query : Query} (may : allowed past query) :
    (checkout.ask query).run.Keeps allowed
      (fun now outcome => ∃ reply, now = past ++ [(query, reply)] ∧
        ∀ status output errors, outcome = .ok (status, output, errors) →
          reply = .ended status output errors) past := by
  refine ⟨may, fun reply => ?_⟩
  cases reply with
  | notStarted reason =>
    exact ⟨_, rfl, fun _ _ _ failed => absurd failed (by rintro ⟨⟩)⟩
  | ended status output errors =>
    refine ⟨_, rfl, fun _ _ _ same => ?_⟩
    cases same
    rfl

/-- The root is asked for before anything else. -/
theorem keeps_discover (program : String) (space : Workspace) (path : String) :
    (discover program space path).run.Keeps (MayAsk revision) (fun now _ => now ≠ []) [] := by
  refine ⟨rfl, fun reply => ?_⟩
  cases reply with
  | notStarted reason => exact List.cons_ne_nil _ _
  | ended status output errors =>
    cases status with
    | zero => exact List.cons_ne_nil _ _
    | succ status => exact List.cons_ne_nil _ _

/-- A revision is checked when its check ends well, and only one that is passed on is asked
about. -/
theorem keeps_verify (asked : past ≠ []) :
    (checkout.verify revision).run.Keeps (MayAsk revision)
      (fun now outcome => outcome = .ok () → Checked revision now) past := by
  unfold verify
  by_cases bad : revision = "" ∨ revision.toList.head? = some '-'
  · rw [if_pos bad]
    exact fun same => absurd same (by rintro ⟨⟩)
  · rw [if_neg bad]
    have passed : IsPassedOn revision := not_or.1 bad
    refine Session.keeps_bind (keeps_ask ⟨rfl, passed, asked⟩) ?_ ?_
    · rintro now ⟨status, output, errors⟩ ⟨reply, rfl, same⟩
      obtain rfl := same status output errors rfl
      cases status with
      | zero => exact fun _ => ⟨passed, output, errors, List.mem_append_right _ List.mem_cons_self⟩
      | succ status => exact fun same => absurd same (by rintro ⟨⟩)
    · exact fun _ _ _ same => absurd same (by rintro ⟨⟩)

/-- A question about the tree of a checked revision leaves the revision checked. -/
theorem keeps_output {query : Query} (about : query.treeRevision? = some revision)
    (checked : Checked revision past) :
    (checkout.output query).run.Keeps (MayAsk revision) (fun now _ => Checked revision now)
      past := by
  unfold output
  refine Session.keeps_bind (keeps_ask ((mayAsk_iff_checked about).2 ⟨rfl, checked⟩)) ?_ ?_
  · rintro now ⟨status, output, errors⟩ ⟨reply, rfl, -⟩
    cases status with
    | zero => exact checked.append _
    | succ status => exact checked.append _
  · rintro now failure ⟨reply, rfl, -⟩
    exact checked.append _

/-- The entries of a path are asked for in the tree of a checked revision. -/
theorem keeps_entries (path : String) (checked : Checked revision past) :
    (checkout.entries revision path).run.Keeps (MayAsk revision)
      (fun now _ => Checked revision now) past :=
  Session.keeps_bind_always (keeps_output rfl checked) fun _ _ reached => reached

/-- The files below a path are asked for in the tree of a checked revision. -/
theorem keeps_files (path : String) (checked : Checked revision past) :
    (checkout.files revision path).run.Keeps (MayAsk revision)
      (fun now _ => Checked revision now) past :=
  Session.keeps_bind_always (keeps_output rfl checked) fun _ _ reached => reached

/-- The content of a file is asked for in the tree of a checked revision. -/
theorem keeps_blob (path : String) (checked : Checked revision past) :
    (checkout.blob revision path).run.Keeps (MayAsk revision)
      (fun now _ => Checked revision now) past :=
  keeps_output rfl checked

end Checkout

end CodeDelta.Git
