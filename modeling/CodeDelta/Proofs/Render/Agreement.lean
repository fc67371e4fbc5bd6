import CodeDelta.Proofs.Diff.Wording
import CodeDelta.Proofs.Document.Comparisons
import CodeDelta.Proofs.Render.Entries
import CodeDelta.Proofs.Render.LineBreaks
import Mathlib.Data.List.Perm.Basic
import Mathlib.Tactic.TFAE

/-!
# The formats agree on the changes

A comparison is told as counts, as a phrase, as a table with a section for each kind of change, and
in lines. All of them tell the same changes (`formats_agree`): every entry stands in the section of
its kind and in one line, and the heading of a section gives the number of lines that start with the
mark of the kind. Without colours the table is the text of its sections between its heading and the
grid of the counts (`Report.render_table`), and says that there is no change exactly when there is
no line, no count and no record.
-/

namespace CodeDelta

open Render

/-! ## Sections -/

namespace Detail

/-- The entries of a kind, in the order of the report. -/
def entriesOf (detail : Detail) (kind : ChangeKind) : List (Category × Record) :=
  detail.entries.filter fun entry => entry.2.kind = kind

/-- The kinds that occur, in the order of their sections. -/
def kinds (detail : Detail) : List ChangeKind :=
  [ChangeKind.added, .modified, .removed].filter fun kind => detail.entriesOf kind ≠ []

/-- The text of a kind's section with a number in its heading, without colours: the heading, every
entry of the kind, and an empty line. -/
def sectionText (detail : Detail) (kind : ChangeKind) (count : ℕ) : String :=
  kind.headingWord ++ " (" ++ toString count ++ "):\n" ++
    String.join ((detail.entriesOf kind).map entryText) ++ "\n"

variable (detail : Detail)

/-- The sections are those of the kinds that occur, each with all entries of its kind. -/
theorem sections_eq :
    detail.sections = detail.kinds.map fun kind => ⟨kind, detail.entriesOf kind⟩ := by
  unfold sections kinds
  generalize [ChangeKind.added, .modified, .removed] = order
  induction order with
  | nil => rfl
  | cons kind rest ih =>
    have records : (detail.entries.filter fun entry => entry.2.kind = kind) =
        detail.entriesOf kind := rfl
    rw [List.filterMap_cons, List.filter_cons, ih, records]
    cases found : detail.entriesOf kind with
    | nil => simp
    | cons entry others => simp [found]

/-- Every entry is of one of the three kinds. -/
theorem perm_entriesOf :
    ([ChangeKind.added, .modified, .removed].flatMap detail.entriesOf).Perm detail.entries := by
  have others : ∀ kind, kind ≠ .added →
      detail.entriesOf kind =
        (detail.entries.filter fun entry => !decide (entry.2.kind = .added)).filter
          fun entry => entry.2.kind = kind := by
    intro kind h
    unfold entriesOf
    rw [List.filter_filter]
    refine List.filter_congr fun entry _ => ?_
    by_cases same : entry.2.kind = kind
    · simp [same, h]
    · simp [same]
  have last : detail.entriesOf .removed =
      (detail.entries.filter fun entry => !decide (entry.2.kind = .added)).filter
        fun entry => !decide (entry.2.kind = .modified) := by
    unfold entriesOf
    rw [List.filter_filter]
    refine List.filter_congr fun entry _ => ?_
    cases entry.2.kind <;> rfl
  -- The entries are cut by the first kind, and those of the others by the second.
  rw [List.flatMap_cons, List.flatMap_cons, List.flatMap_singleton,
    others .modified ChangeKind.noConfusion, last]
  refine List.Perm.trans ?_ (List.filter_append_perm (fun entry => entry.2.kind = .added) _)
  exact List.Perm.append_left _
    (List.filter_append_perm (fun entry : Category × Record => entry.2.kind = .modified) _)

/-- Some kind occurs when there is an entry. -/
theorem kinds_eq_nil_iff : detail.kinds = [] ↔ detail.entries = [] := by
  unfold kinds
  rw [List.filter_eq_nil_iff]
  constructor
  · intro none
    rw [← List.nil_perm, List.perm_comm]
    refine detail.perm_entriesOf.symm.trans (List.Perm.of_eq ?_)
    rw [List.flatMap_eq_nil_iff]
    intro kind inside
    simpa using none kind inside
  · intro none kind _
    simp [entriesOf, none]

/-- The lines of a section give the number of its entries in their heading. -/
theorem unlines_section (kind : ChangeKind) :
    unlines ((Section.mk kind (detail.entriesOf kind)).lines false) =
      detail.sectionText kind (detail.entriesOf kind).length := by
  have heading (n : ℕ) :
      s!"{(Section.mk kind (detail.entriesOf kind)).title} ({n}):" ++ "\n" =
        kind.headingWord ++ " (" ++ toString n ++ "):\n" := by
    cases kind <;> exact String.append_assoc ..
  have told : ∀ entry ∈ detail.entriesOf kind,
      unlines ((Section.mk kind (detail.entriesOf kind)).recordLines false entry.1 entry.2) =
        entryText entry := by
    intro entry inside
    obtain rfl : entry.2.kind = kind := of_decide_eq_true (List.mem_filter.1 inside).2
    exact unlines_recordLines entry _
  unfold Section.lines sectionText
  rw [unlines_append, unlines_append, unlines_singleton, unlines_singleton, unlines_flatMap,
    List.map_congr_left told, String.empty_append]
  exact congrArg (· ++ _ ++ _) (heading _)

/-- A section starts with another character than the text for no changes. -/
theorem exists_head_sectionText (kind : ChangeKind) (count : ℕ) :
    ∃ c rest, (detail.sectionText kind count).toList = c :: rest ∧ c ≠ 'N' := by
  unfold sectionText
  cases kind <;> simp [ChangeKind.headingWord, String.toList_append]

/-- Where there is an entry, the sections are no text for no changes, whatever follows them. -/
theorem join_sectionText_ne (some_ : detail.entries ≠ []) (count : ChangeKind → ℕ)
    (more : String) :
    String.join (detail.kinds.map fun kind => detail.sectionText kind (count kind)) ++ more ≠
      "No changes\n" := by
  obtain ⟨first, others, order⟩ := List.exists_cons_of_ne_nil (mt detail.kinds_eq_nil_iff.1 some_)
  obtain ⟨c, rest, start, other⟩ := detail.exists_head_sectionText first (count first)
  intro same
  have head := congrArg (fun text => text.toList.head?) same
  simp only [order, List.map_cons, String.join_cons, String.toList_append, start, List.cons_append,
    List.head?_cons] at head
  exact other (Option.some.inj (head.trans (by decide)))

end Detail

/-! ## Lines by their marks -/

/-- The line of an entry starts with the mark of its kind. -/
theorem Render.head?_lineText (entry : Category × Record) (file : Option String) :
    (lineText entry file).toList.head? = some entry.2.kind.mark := by
  unfold lineText
  simp [String.toList_append]

/-- The lines of a report tell its entries in order, which stand on the old side when they are
removed and else on the new side. -/
theorem Report.grepLines_eq (report : Report) :
    report.grepLines = report.detail.entries.map fun entry => lineText entry
      (sideFile (if entry.2.kind = .removed then report.left else report.right)) :=
  List.map_congr_left fun entry _ => changeLine_eq_lineText entry _

/-- As many lines start with the mark of a kind as there are entries of it. -/
theorem Report.countP_grepLines (report : Report) (kind : ChangeKind) :
    (report.grepLines.countP fun line => line.toList.head? = some kind.mark) =
      (report.detail.entriesOf kind).length := by
  rw [Report.grepLines_eq, List.countP_map, List.countP_eq_length_filter]
  unfold Detail.entriesOf
  refine congrArg List.length (List.filter_congr fun entry _ => ?_)
  simp only [Function.comp_apply, head?_lineText, Option.some.injEq, ChangeKind.mark_inj]

/-! ## Reports -/

/-- Without colours a table is the text of its heading and, below it, of the sections of the kinds
that occur, which give the numbers of their entries, and of the grid of the counts; or it says that
there are no changes. -/
theorem Report.render_table (report : Report) (compact : Bool) :
    report.render ⟨.table, false, compact⟩ =
      unlines (report.headingLines false) ++
        if report.summary.isEmpty then "No changes\n"
        else String.join (report.detail.kinds.map fun kind =>
            report.detail.sectionText kind (report.detail.entriesOf kind).length) ++
          unlines (summaryLines compact report.summary) := by
  show unlines (report.tableLines ⟨.table, false, compact⟩) = _
  unfold tableLines
  rw [unlines_append]
  congr 1
  split_ifs
  · rw [unlines_singleton]
    rfl
  · rw [unlines_append, Detail.sections_eq, List.flatMap_map, unlines_flatMap]
    simp only [Detail.unlines_section]

variable (left right : Structure) (here there : String) (compact : Bool)

/-- The formats agree on the changes. The summary counts the records of every category and kind. The
table says that there are no changes exactly when the format of lines is empty, the phrase says so
and no record is there. Else it has a section for each kind that occurs, with the number of lines
that start with its mark. The entries are the records of the functions, the classes and the imports;
together the sections list each of them once. The format of lines is one line for each entry, in
order. -/
theorem formats_agree (unbroken : (left.report right here there).Unbroken) :
    let diff := left.diff right
    let report := left.report right here there
    let heading := unlines (report.headingLines false)
    let table := report.render ⟨.table, false, compact⟩
    let grep := report.render ⟨.grep, false, compact⟩
    (∀ category kind, (diff.summary.get category).get kind =
        (ofKind kind (diff.detail.get category)).length) ∧
      diff.summary.imports.modified = 0 ∧
      [table = heading ++ "No changes\n", grep = "", diff.summary.text = "No changes",
        diff.hasChanges = false].TFAE ∧
      (diff.hasChanges = true → table = heading ++
        String.join (diff.detail.kinds.map fun kind => diff.detail.sectionText kind
          ((linesOf grep).countP fun line => line.toList.head? = some kind.mark)) ++
        unlines (summaryLines compact diff.summary)) ∧
      diff.detail.entries = diff.detail.functions.map (Prod.mk .function) ++
        diff.detail.classes.map (Prod.mk .classDef) ++
        diff.detail.imports.map (Prod.mk .importDecl) ∧
      ([ChangeKind.added, .modified, .removed].flatMap diff.detail.entriesOf).Perm
        diff.detail.entries ∧
      IsLines diff.detail.entries.length grep ∧
      linesOf grep = diff.detail.entries.map fun entry => lineText entry
        (sideFile (if entry.2.kind = .removed then report.left else report.right)) := by
  intro diff report heading table grep
  have lines : linesOf grep = report.grepLines := Report.linesOf_grep unbroken false compact
  have empty_iff : diff.summary.isEmpty = true ↔ diff.hasChanges = false := by
    rw [hasChanges_eq_false_iff]
    exact beq_iff_eq
  have shown : diff.hasChanges = true → table = heading ++
      String.join (diff.detail.kinds.map fun kind => diff.detail.sectionText kind
        ((linesOf grep).countP fun line => line.toList.head? = some kind.mark)) ++
      unlines (summaryLines compact diff.summary) := by
    intro changed
    have some_ : ¬report.summary.isEmpty = true := fun none =>
      absurd (empty_iff.1 none) (by rw [changed]; exact Bool.noConfusion)
    simp only [lines, Report.countP_grepLines]
    rw [String.append_assoc]
    exact (report.render_table compact).trans (congrArg _ (if_neg some_))
  refine ⟨get_summary_diff left right, modified_imports_diff left right, ?_, shown,
    diff.detail.entries_eq, diff.detail.perm_entriesOf, ?_,
    lines.trans (Report.grepLines_eq report)⟩
  · tfae_have 2 ↔ 4 := by
      show unlines report.grepLines = "" ↔ _
      rw [unlines_eq_empty_iff, ← List.length_eq_zero_iff, hasChanges_eq_false_iff,
        total_summary_diff]
      exact iff_of_eq (congrArg (· = 0) (List.length_map _))
    tfae_have 3 ↔ 4 := by rw [Summary.text_eq_iff, hasChanges_eq_false_iff]
    tfae_have 4 → 1 := fun none =>
      (report.render_table compact).trans (congrArg _ (if_pos (empty_iff.2 none)))
    tfae_have 1 → 4 := by
      intro same
      by_contra changed
      have some_ : diff.detail.entries ≠ [] := by
        rwa [hasChanges_eq_false_iff, total_summary_diff, List.length_eq_zero_iff] at changed
      rw [shown (eq_true_of_ne_false changed), String.append_assoc,
        String.append_right_inj] at same
      exact diff.detail.join_sectionText_ne some_ _ _ same
    tfae_finish
  · have count : report.grepLines.length = diff.detail.entries.length := List.length_map _
    rw [← count]
    exact isLines_unlines unbroken.grepLines

/-- A program before a change. -/
def greetingsBefore : Structure :=
  { Structure.blank with
    functions := [{ Element.named "greet" with complexity := some 1 },
      { Element.named "farewell" with line := some 5 }] }

/-- The program after it: one function is gone, one is new, and one changed. -/
def greetingsAfter : Structure :=
  { Structure.blank with
    functions := [{ Element.named "greet" with complexity := some 3 },
      { Element.named "wave" with file := some "wave.py", line := some 9 }] }

/-- Three changes of three kinds are three sections and three lines. -/
theorem formats_agree_greetings :
    (greetingsBefore.report greetingsAfter "old.py" "new.py").Unbroken ∧
    (greetingsBefore.report greetingsAfter "old.py" "new.py").render ⟨.table, false, true⟩ =
      "DIFF: old.py -> new.py\nfile vs file\n\n" ++
      "ADDED (1):\n  + wave [function] wave.py:9\n\n" ++
      "MODIFIED (1):\n  ~ greet [function]\n      complexity: 1 -> 3 (+2)\n\n" ++
      "REMOVED (1):\n  - farewell [function]\n\n" ++
      unlines (summaryLines true (greetingsBefore.diff greetingsAfter).summary) ∧
    linesOf ((greetingsBefore.report greetingsAfter "old.py" "new.py").render
        ⟨.grep, false, true⟩) =
      ["+ function wave wave.py:9", "- function farewell old.py:5", "~ function greet new.py"] := by
  have unbroken : (greetingsBefore.report greetingsAfter "old.py" "new.py").Unbroken :=
    ⟨by decide, by decide, by decide⟩
  obtain ⟨-, -, -, shown, -, -, -, lines⟩ :=
    formats_agree greetingsBefore greetingsAfter "old.py" "new.py" true unbroken
  refine ⟨unbroken, (shown (by decide)).trans (congrArg (· ++ _) ?_), lines.trans (by decide)⟩
  decide +kernel

end CodeDelta
