import CodeDelta.Diff.Change
import CodeDelta.Proofs.Text.Joined
import Mathlib.Data.Nat.Notation
import Mathlib.Tactic.Common

/-!
# The summary in words

Counts that are zero and categories without changes are left out of the words, and still the words
tell all counts (`Summary.text_eq_text_iff`): a count that is told is told behind its kind's word
and in its category's part, and one that is not told is zero. The phrases and the parts are two
layers of one shape, a list of what is told of each key, which tells the values of all keys when no
text is told of two (`eq_of_filterMap_eq`); neither kind of joint occurs in what it joins.
-/

namespace CodeDelta

/-- What is told of some keys tells the value of each, when no text is told of two keys or two
values and silence is kept of one value only. -/
theorem eq_of_filterMap_eq {κ ν : Type} (tell : κ → ν → Option String)
    (apart : ∀ {key other value value' text}, tell key value = some text →
      tell other value' = some text → key = other ∧ value = value')
    (silent : ∀ {key value value'}, tell key value = none → tell key value' = none →
      value = value')
    {keys : List κ} {values others : κ → ν}
    (same : (keys.filterMap fun key => tell key (values key)) =
      keys.filterMap fun key => tell key (others key)) :
    ∀ key ∈ keys, values key = others key := by
  -- A text in one of the lists stands in the other one, where only its own key has it.
  have told : ∀ {first second : κ → ν} {key : κ} {text : String},
      ((keys.filterMap fun key => tell key (first key)) =
        keys.filterMap fun key => tell key (second key)) →
      key ∈ keys → tell key (first key) = some text → first key = second key := by
    intro first second key text equal inside found
    have member : text ∈ keys.filterMap fun key => tell key (second key) := by
      rw [← equal]
      exact List.mem_filterMap.2 ⟨key, inside, found⟩
    obtain ⟨other, -, found'⟩ := List.mem_filterMap.1 member
    obtain ⟨rfl, value⟩ := apart found found'
    exact value
  intro key inside
  cases here : tell key (values key) with
  | some text => exact told same inside here
  | none =>
    cases there : tell key (others key) with
    | some text => exact (told same.symm inside there).symm
    | none => exact silent here there

/-- Counts that agree on every kind are equal. -/
theorem Counts.ext_get {a b : Counts} (h : ∀ kind, a.get kind = b.get kind) : a = b := by
  have added : a.added = b.added := h .added
  have removed : a.removed = b.removed := h .removed
  have modified : a.modified = b.modified := h .modified
  calc a
    _ = ⟨a.added, a.removed, a.modified⟩ := rfl
    _ = ⟨b.added, b.removed, b.modified⟩ := by rw [added, removed, modified]
    _ = b := rfl

/-- Summaries with the same counts are equal. -/
theorem Summary.ext_get {a b : Summary}
    (h : ∀ category kind, (a.get category).get kind = (b.get category).get kind) : a = b := by
  have functions : a.functions = b.functions := Counts.ext_get (h .function)
  have classes : a.classes = b.classes := Counts.ext_get (h .classDef)
  have imports : a.imports = b.imports := Counts.ext_get (h .importDecl)
  calc a
    _ = ⟨a.functions, a.classes, a.imports⟩ := rfl
    _ = ⟨b.functions, b.classes, b.imports⟩ := by rw [functions, classes, imports]
    _ = b := rfl

/-! ## Phrases -/

namespace ChangeKind

/-- A number of changes of a kind, in words. -/
def phrase (kind : ChangeKind) (n : ℕ) : String := s!"{n} {kind.word}"

/-- Two kinds with one word are one. -/
theorem word_inj {a b : ChangeKind} : a.word = b.word ↔ a = b := by
  cases a <;> cases b <;> decide

/-- A phrase is a number in digits, a blank and a word. -/
theorem toList_phrase (kind : ChangeKind) (n : ℕ) :
    (kind.phrase n).toList = Nat.toDigits 10 n ++ ' ' :: kind.word.toList := by
  show (n.repr ++ " " ++ kind.word).toList = _
  rw [String.toList_append, String.toList_append, Nat.toList_repr, List.append_assoc]
  rfl

/-- A phrase holds digits, letters and a blank. -/
theorem mem_phrase {kind : ChangeKind} {n : ℕ} {c : Char} (h : c ∈ (kind.phrase n).toList) :
    c.isAlphanum = true ∨ c = ' ' := by
  have letters : kind.word.toList.all Char.isAlphanum = true := by cases kind <;> decide
  rw [toList_phrase, List.mem_append, List.mem_cons] at h
  rcases h with digit | blank | letter
  · have isDigit : c.isDigit = true := Nat.isDigit_of_mem_toDigits (by decide) (by decide) digit
    exact Or.inl (by rw [Char.isAlphanum, isDigit, Bool.or_true])
  · exact Or.inr blank
  · exact Or.inl (List.all_eq_true.1 letters c letter)

/-- Phrases tell their kinds and numbers. -/
theorem phrase_inj {a b : ChangeKind} {m n : ℕ} : a.phrase m = b.phrase n ↔ a = b ∧ m = n := by
  have noBlank : ∀ k : ℕ, ' ' ∉ Nat.toDigits 10 k := fun k blank =>
    absurd (Nat.isDigit_of_mem_toDigits (by decide) (by decide) blank) (by decide)
  have digits : Nat.toDigits 10 m = Nat.toDigits 10 n ↔ m = n := by
    refine ⟨fun same => ?_, congrArg (Nat.toDigits 10)⟩
    calc m = Nat.ofDigitChars 10 (Nat.toDigits 10 m) 0 := Nat.ofDigitChars_ten_toDigits.symm
      _ = Nat.ofDigitChars 10 (Nat.toDigits 10 n) 0 := by rw [same]
      _ = n := Nat.ofDigitChars_ten_toDigits
  calc a.phrase m = b.phrase n
    _ ↔ Nat.toDigits 10 m = Nat.toDigits 10 n ∧ a.word.toList = b.word.toList := by
      rw [← String.toList_inj, toList_phrase, toList_phrase,
        Text.append_mark_inj (noBlank m) (noBlank n)]
    _ ↔ m = n ∧ a = b := by rw [digits, String.toList_inj, word_inj]
    _ ↔ a = b ∧ m = n := and_comm

end ChangeKind

namespace Counts

/-- The phrases are those of the numbers that are not zero. -/
theorem phrases_eq (counts : Counts) :
    counts.phrases = [ChangeKind.added, .removed, .modified].filterMap fun kind =>
      if counts.get kind = 0 then none else some (kind.phrase (counts.get kind)) := rfl

/-- Nothing is said of a category without changes. -/
theorem phrases_eq_nil_iff {counts : Counts} : counts.phrases = [] ↔ counts.total = 0 := by
  unfold phrases total
  rw [List.filterMap_eq_nil_iff]
  simp only [List.forall_mem_cons, get]
  split_ifs <;> simp_all

/-- A phrase is that of a kind and a number. -/
theorem exists_phrase_of_mem_phrases {counts : Counts} {text : String} (h : text ∈ counts.phrases) :
    ∃ (kind : ChangeKind) (n : ℕ), kind.phrase n = text := by
  rw [phrases_eq] at h
  obtain ⟨kind, -, told⟩ := List.mem_filterMap.1 h
  by_cases zero : counts.get kind = 0
  · rw [if_pos zero] at told
    exact absurd told.symm (Option.some_ne_none text)
  · rw [if_neg zero] at told
    exact ⟨kind, counts.get kind, Option.some.inj told⟩

/-- A phrase holds no mark of punctuation. -/
theorem not_mem_of_mem_phrases {counts : Counts} {text : String} (h : text ∈ counts.phrases)
    {mark : Char} (sign : mark.isAlphanum = false) (notBlank : mark ≠ ' ') :
    mark ∉ text.toList := by
  obtain ⟨kind, n, rfl⟩ := exists_phrase_of_mem_phrases h
  intro inside
  rcases ChangeKind.mem_phrase inside with letter | blank
  · exact absurd letter (by rw [sign]; exact Bool.false_ne_true)
  · exact notBlank blank

/-- The phrases tell the three counts. -/
theorem phrases_inj {a b : Counts} : a.phrases = b.phrases ↔ a = b := by
  refine ⟨fun same => ?_, fun same => congrArg phrases same⟩
  rw [phrases_eq, phrases_eq] at same
  have counts : ∀ kind ∈ [ChangeKind.added, .removed, .modified], a.get kind = b.get kind := by
    refine eq_of_filterMap_eq
      (fun (kind : ChangeKind) n => if n = 0 then none else some (kind.phrase n)) ?_ ?_ same
    · intro kind other m n text here there
      split_ifs at here there
      exact ChangeKind.phrase_inj.1
        ((Option.some.inj here).trans (Option.some.inj there).symm)
    · intro kind m n here there
      split_ifs at here there with zero zero'
      exact zero.trans zero'.symm
  refine ext_get fun kind => counts kind ?_
  cases kind <;> decide

end Counts

/-! ## Parts -/

/-- Two categories with one name are one. -/
theorem Category.plural_inj {a b : Category} : a.plural = b.plural ↔ a = b := by
  cases a <;> cases b <;> decide

/-- What is told of a category: nothing when it has no changes. -/
def Category.told? (category : Category) (counts : Counts) : Option String :=
  match counts.phrases with
  | [] => none
  | phrases => some (category.plural ++ ": " ++ ", ".intercalate phrases)

namespace Category

/-- Nothing is told of a category only when there is no phrase. -/
theorem told?_eq_none_iff {category : Category} {counts : Counts} :
    category.told? counts = none ↔ counts.phrases = [] := by
  unfold told?
  cases counts.phrases with
  | nil => exact iff_of_true rfl rfl
  | cons phrase rest => exact iff_of_false (Option.some_ne_none _) (List.cons_ne_nil _ _)

/-- What is told of a category is its name and, behind a colon, its phrases. -/
theorem told?_eq_some_iff {category : Category} {counts : Counts} {text : String} :
    category.told? counts = some text ↔
      counts.phrases ≠ [] ∧ category.plural ++ ": " ++ ", ".intercalate counts.phrases = text := by
  unfold told?
  cases counts.phrases with
  | nil => exact iff_of_false (Option.some_ne_none text).symm fun h => h.1 rfl
  | cons phrase rest => simp only [Option.some.injEq, ne_eq, reduceCtorEq, not_false_eq_true,
      true_and]

/-- The characters of a part: the name, a colon, a blank and the phrases. -/
theorem toList_part (category : Category) (phrases : String) :
    (category.plural ++ ": " ++ phrases).toList =
      category.plural.toList ++ ':' :: ' ' :: phrases.toList := by
  rw [String.toList_append, String.toList_append, List.append_assoc]
  rfl

/-- What is told tells the category and all its counts. -/
theorem told?_inj {a b : Category} {counts others : Counts} {text : String}
    (here : a.told? counts = some text) (there : b.told? others = some text) :
    a = b ∧ counts = others := by
  obtain ⟨filled, rfl⟩ := told?_eq_some_iff.1 here
  obtain ⟨filled', same⟩ := told?_eq_some_iff.1 there
  have noColon : ∀ category : Category, ':' ∉ category.plural.toList := by
    intro category
    cases category <;> decide
  -- The first colon is the one behind the name.
  rw [← String.toList_inj, toList_part, toList_part,
    Text.append_mark_inj (noColon b) (noColon a), String.toList_inj, plural_inj,
    List.cons.injEq, String.toList_inj] at same
  obtain ⟨rfl, -, joined⟩ := same
  have noComma : ∀ counts : Counts, ∀ phrase ∈ counts.phrases, ',' ∉ phrase.toList :=
    fun counts phrase inside =>
      Counts.not_mem_of_mem_phrases inside (by decide) (by decide)
  have joint : ", ".toList = ',' :: [' '] := by decide
  have phrases : counts.phrases = others.phrases :=
    Text.intercalate_inj joint (noComma counts) (noComma others) filled filled' joined.symm
  exact ⟨rfl, Counts.phrases_inj.1 phrases⟩

/-- What is told of a category holds a colon. -/
theorem colon_mem_told? {category : Category} {counts : Counts} {text : String}
    (h : category.told? counts = some text) : ':' ∈ text.toList := by
  obtain ⟨-, rfl⟩ := told?_eq_some_iff.1 h
  rw [toList_part]
  exact List.mem_append_right _ List.mem_cons_self

/-- What is told of a category holds no semicolon. -/
theorem semicolon_not_mem_told? {category : Category} {counts : Counts} {text : String}
    (h : category.told? counts = some text) : ';' ∉ text.toList := by
  obtain ⟨-, rfl⟩ := told?_eq_some_iff.1 h
  have name : ';' ∉ category.plural.toList := by cases category <;> decide
  have phrases : ';' ∉ (", ".intercalate counts.phrases).toList :=
    Text.not_mem_intercalate (by decide) fun phrase inside =>
      Counts.not_mem_of_mem_phrases inside (by decide) (by decide)
  rw [toList_part, List.mem_append, List.mem_cons, List.mem_cons, not_or, not_or, not_or]
  exact ⟨name, by decide, by decide, phrases⟩

end Category

namespace Summary

/-- What is told of the categories, one after another. -/
def parts (summary : Summary) : List String :=
  Category.all.filterMap fun category => category.told? (summary.get category)

/-- The summary joins what is told of the categories. -/
theorem text_eq (summary : Summary) :
    summary.text =
      if summary.parts.isEmpty then "No changes" else "; ".intercalate summary.parts := rfl

/-- The counts of the categories are all zero when their sum is. -/
theorem total_eq_zero_iff {summary : Summary} :
    summary.total = 0 ↔ ∀ category ∈ Category.all, (summary.get category).total = 0 := by
  unfold total Category.all
  simp only [List.forall_mem_cons, List.not_mem_nil, false_implies, implies_true, and_true, get]
  omega

/-- Nothing is told exactly when no change is counted. -/
theorem parts_eq_nil_iff {summary : Summary} : summary.parts = [] ↔ summary.total = 0 := by
  rw [total_eq_zero_iff, parts, List.filterMap_eq_nil_iff]
  simp only [Category.told?_eq_none_iff, Counts.phrases_eq_nil_iff]

/-- Where something is told, the summary joins what is told. -/
theorem text_of_parts_ne_nil {summary : Summary} (filled : summary.parts ≠ []) :
    summary.text = "; ".intercalate summary.parts := by
  rw [text_eq, if_neg (mt List.isEmpty_iff.1 filled)]

/-- The summary says that there are no changes exactly when it counts none. -/
theorem text_eq_iff {summary : Summary} : summary.text = "No changes" ↔ summary.total = 0 := by
  rw [← parts_eq_nil_iff]
  by_cases filled : summary.parts = []
  · refine iff_of_true ?_ filled
    rw [text_eq, if_pos (List.isEmpty_iff.2 filled)]
  · refine iff_of_false (fun same => ?_) filled
    obtain ⟨first, rest, split⟩ := List.exists_cons_of_ne_nil filled
    have member : first ∈ summary.parts := split ▸ List.mem_cons_self
    obtain ⟨category, -, told⟩ := List.mem_filterMap.1 member
    have joint : "; ".toList = ';' :: [' '] := by decide
    -- A part has a colon, and the text for no changes has none.
    have colon : ':' ∈ ("; ".intercalate (first :: rest)).toList := by
      cases rest with
      | nil => exact Category.colon_mem_told? told
      | cons second later =>
        rw [Text.toList_intercalate_cons_cons joint]
        exact List.mem_append_left _ (Category.colon_mem_told? told)
    rw [← split, ← text_of_parts_ne_nil filled, same] at colon
    exact absurd colon (by decide)

/-- What is told of the categories tells all counts. -/
theorem get_eq_of_parts_eq {a b : Summary} (same : a.parts = b.parts) (category : Category) :
    a.get category = b.get category := by
  refine eq_of_filterMap_eq Category.told? ?_ ?_ same category
    (by cases category <;> decide)
  · exact Category.told?_inj
  · intro category counts others here there
    rw [← Counts.phrases_inj, Category.told?_eq_none_iff.1 here,
      Category.told?_eq_none_iff.1 there]

/-- The words tell all nine counts: two summaries have the same text exactly when each kind of
change is counted the same in each category. -/
theorem text_eq_text_iff (a b : Summary) :
    a.text = b.text ↔ ∀ category kind, (a.get category).get kind = (b.get category).get kind := by
  constructor
  · intro same
    have noSemicolon : ∀ summary : Summary, ∀ part ∈ summary.parts, ';' ∉ part.toList := by
      intro summary part inside
      obtain ⟨category, -, told⟩ := List.mem_filterMap.1 inside
      exact Category.semicolon_not_mem_told? told
    have parts : a.parts = b.parts := by
      by_cases none_ : a.parts = []
      · have unchanged : b.text = "No changes" := by
          rw [← same, text_eq_iff, ← parts_eq_nil_iff, none_]
        rw [none_, eq_comm, parts_eq_nil_iff, ← text_eq_iff, unchanged]
      · have filled : b.parts ≠ [] := by
          rwa [ne_eq, parts_eq_nil_iff, ← text_eq_iff, ← same, text_eq_iff, ← parts_eq_nil_iff]
        rw [text_of_parts_ne_nil none_, text_of_parts_ne_nil filled] at same
        have joint : "; ".toList = ';' :: [' '] := by decide
        exact Text.intercalate_inj joint (noSemicolon a) (noSemicolon b) none_ filled same
    intro category kind
    rw [get_eq_of_parts_eq parts category]
  · intro counts
    rw [ext_get counts]

end Summary

end CodeDelta
