import CodeDelta.Proofs.Text.Split
import Mathlib.Data.List.Chain

/-!
# Words and collapsed texts

The words of a text are the pieces between its blanks, without the empty ones (`words_eq`). Words
with one space between them are read back as they were (`words_unwords`), and the texts so written
are those that have no blank at their ends, no two blanks in a row and no blank but spaces
(`collapseChars_eq_self_iff`). So collapsing is a canonical form: it keeps the words of a text and
nothing else (`collapse_eq_iff`), and it changes no text of that form.
-/

namespace CodeDelta.Text

variable {text word : List Char} {texts : List (List Char)} {c : Char}

/-! ## Words -/

/-- A run in progress belongs to the first piece of what follows. -/
theorem wordsFrom_eq (word text : List Char) :
    wordsFrom word text =
      ((text.splitOnP isBlank).modifyHead (word.reverse ++ ·)).filter (· ≠ []) := by
  induction text generalizing word with
  | nil =>
    cases word <;> simp [wordsFrom, List.splitOnP_nil]
  | cons c rest ih =>
    rw [List.splitOnP_cons_eq_if_modifyHead, wordsFrom]
    by_cases blank : isBlank c = true
    · have fresh : wordsFrom [] rest = (rest.splitOnP isBlank).filter (· ≠ []) := by
        rw [ih]
        cases rest.splitOnP isBlank <;> rfl
      rw [if_pos blank, if_pos blank, fresh, List.modifyHead_cons, List.append_nil]
      cases word <;> simp
    · have longer : (((c :: word).reverse ++ ·) : List Char → List Char) =
          (word.reverse ++ ·) ∘ (c :: ·) := by
        funext piece
        simp
      rw [if_neg blank, if_neg blank, ih, List.modifyHead_modifyHead, longer]

/-- The words of a text are what stands between its blanks. -/
theorem words_eq (text : List Char) : words text = (text.splitOnP isBlank).filter (· ≠ []) := by
  unfold words
  rw [wordsFrom_eq]
  cases text.splitOnP isBlank <;> rfl

/-- A word ends at a blank. -/
theorem words_append_blank (blank : isBlank c = true) (before after : List Char) :
    words (before ++ c :: after) = words before ++ words after := by
  rw [words_eq, words_eq, words_eq, List.splitOnP_append_cons before after blank,
    List.filter_append]

/-- A text can be a word when it is not empty and no blank is in it. -/
structure IsWord (word : List Char) : Prop where
  /-- It has a character. -/
  ne_nil : word ≠ []
  /-- It has no blank. -/
  dense : ∀ c ∈ word, isBlank c = false

-- The instance for the characters is given by name: theirs could also be searched through.
instance (word : List Char) : Decidable (IsWord word) :=
  have := List.decidableBAll (fun c => isBlank c = false) word
  decidable_of_iff (word ≠ [] ∧ ∀ c ∈ word, isBlank c = false)
    ⟨fun h => ⟨h.1, h.2⟩, fun h => ⟨h.ne_nil, h.dense⟩⟩

/-- Such a text is one word. -/
theorem words_of_isWord (h : IsWord word) : words word = [word] := by
  rw [words_eq, List.splitOnP_eq_singleton h.dense]
  exact List.filter_eq_self.2 fun piece inside => by
    rw [List.mem_singleton.1 inside]
    exact decide_eq_true h.ne_nil

/-- The words of a text are words, and made of its characters. -/
theorem of_mem_words (h : word ∈ words text) : IsWord word ∧ word ⊆ text := by
  rw [words_eq] at h
  obtain ⟨inside, some⟩ := List.mem_filter.1 h
  obtain ⟨within, dense⟩ := of_mem_splitOnP inside
  exact ⟨⟨of_decide_eq_true some, dense⟩, within⟩

/-- A text that does not start with a blank starts with its first word. -/
theorem exists_isWord_append (first : isBlank c = false) (rest : List Char) :
    ∃ word more, IsWord word ∧ c :: rest = word ++ more ∧ ∀ d ∈ more.head?, isBlank d = true := by
  refine ⟨(c :: rest).takeWhile fun d => !isBlank d, (c :: rest).dropWhile fun d => !isBlank d,
    ⟨?_, fun d inside => ?_⟩, List.takeWhile_append_dropWhile.symm, fun d hd => ?_⟩
  · rw [List.takeWhile_cons_of_pos (by rw [first]; rfl)]
    exact List.cons_ne_nil c _
  · simpa using List.all_eq_true.1 List.all_takeWhile d inside
  · have stops := List.head?_dropWhile_not (fun d => !isBlank d) (c :: rest)
    rw [Option.mem_def.1 hd] at stops
    simpa using stops

/-! ## Words with spaces between them -/

/-- A word stands in front of others with a space behind it. -/
theorem unwords_cons (word : List Char) (some : texts ≠ []) :
    unwords (word :: texts) = word ++ ' ' :: unwords texts := by
  obtain ⟨second, rest, rfl⟩ := List.exists_cons_of_ne_nil some
  rfl

/-- The words of joined words are these words. -/
theorem words_unwords (h : ∀ word ∈ texts, IsWord word) : words (unwords texts) = texts := by
  induction texts with
  | nil => rfl
  | cons word rest ih =>
    have later := ih fun other inside => h other (List.mem_cons_of_mem word inside)
    have first := words_of_isWord (h word List.mem_cons_self)
    by_cases last : rest = []
    · rw [last]
      exact first
    · rw [unwords_cons word last, words_append_blank rfl, first, later, List.singleton_append]

/-- Collapsing keeps the words of a text. -/
theorem words_collapseChars (text : List Char) : words (collapseChars text) = words text :=
  words_unwords fun _ inside => (of_mem_words inside).1

/-! ## Collapsed texts -/

/-- A text is collapsed when the only blanks in it are single spaces between other characters. -/
structure IsCollapsed (text : List Char) : Prop where
  /-- It starts with no blank. -/
  starts : ∀ c ∈ text.head?, isBlank c = false
  /-- It ends in no blank. -/
  ends : ∀ c ∈ text.getLast?, isBlank c = false
  /-- No blank follows another. -/
  single : text.IsChain fun c d => ¬(isBlank c = true ∧ isBlank d = true)
  /-- Every blank is a space. -/
  spaces : ∀ c ∈ text, isBlank c = true → c = ' '

/-- A word is collapsed. -/
theorem IsWord.isCollapsed (h : IsWord word) : IsCollapsed word where
  starts c hc := h.dense c (List.mem_of_head? hc)
  ends c hc := h.dense c (List.mem_of_getLast? hc)
  single := List.Pairwise.isChain <| List.Pairwise.imp_of_mem
    (fun hc _ _ both => absurd ((h.dense _ hc).symm.trans both.1) Bool.false_ne_true)
    (List.pairwise_of_forall fun _ _ => True.intro)
  spaces c hc blank := absurd ((h.dense c hc).symm.trans blank) Bool.false_ne_true

/-- A collapsed text stays so behind a word and a space. -/
theorem IsCollapsed.behind (h : IsCollapsed text) (some : text ≠ []) (first : IsWord word) :
    IsCollapsed (word ++ ' ' :: text) where
  starts c hc := by
    rw [List.head?_append_of_ne_nil _ first.ne_nil] at hc
    exact first.isCollapsed.starts c hc
  ends c hc := by
    rw [List.append_cons, List.getLast?_append_of_ne_nil _ some] at hc
    exact h.ends c hc
  single := by
    rw [List.isChain_append]
    refine ⟨first.isCollapsed.single, ?_, fun c hc d _ both => ?_⟩
    · rw [List.isChain_cons]
      refine ⟨fun d hd both => ?_, h.single⟩
      exact absurd ((h.starts d hd).symm.trans both.2) Bool.false_ne_true
    · exact absurd ((first.isCollapsed.ends c hc).symm.trans both.1) Bool.false_ne_true
  spaces c hc blank := by
    rcases List.mem_append.1 hc with inside | inside
    · exact first.isCollapsed.spaces c inside blank
    · rcases List.mem_cons.1 inside with rfl | inside
      · rfl
      · exact h.spaces c inside blank

/-- Words with a space between them are collapsed. -/
theorem isCollapsed_unwords (h : ∀ word ∈ texts, IsWord word) : IsCollapsed (unwords texts) := by
  induction texts with
  | nil => exact ⟨nofun, nofun, List.isChain_nil, nofun⟩
  | cons word rest ih =>
    have later := fun other inside => h other (List.mem_cons_of_mem word inside)
    have first := h word List.mem_cons_self
    by_cases last : rest = []
    · rw [last]
      exact first.isCollapsed
    · rw [unwords_cons word last]
      refine (ih later).behind (fun none => last ?_) first
      rw [← words_unwords later, none]
      rfl

/-- A collapsed text is empty, a word, or a collapsed text behind a word and a space. -/
theorem IsCollapsed.cases (h : IsCollapsed text) :
    text = [] ∨ IsWord text ∨
      ∃ word later, IsWord word ∧ text = word ++ ' ' :: later ∧ later ≠ [] ∧ IsCollapsed later := by
  cases text with
  | nil => exact Or.inl rfl
  | cons c rest =>
    obtain ⟨word, more, first, cut, stops⟩ := exists_isWord_append (h.starts c rfl) rest
    rw [cut] at h ⊢
    cases more with
    | nil =>
      rw [List.append_nil]
      exact Or.inr (Or.inl first)
    | cons d later =>
      have blank := stops d rfl
      obtain rfl := h.spaces d (List.mem_append_right _ List.mem_cons_self) blank
      -- A space neither ends the text nor stands in front of another blank.
      have some : later ≠ [] := by
        rintro rfl
        have last := h.ends ' ' List.getLast?_concat
        exact absurd (last.symm.trans blank) Bool.false_ne_true
      have apart := List.isChain_cons.1 (List.isChain_append.1 h.single).2.1
      refine Or.inr (Or.inr ⟨word, later, first, rfl, some, ⟨fun e he => ?_, fun e he => ?_,
        apart.2, fun e he => ?_⟩⟩)
      · exact Bool.eq_false_iff.2 fun blank' => apart.1 e he ⟨blank, blank'⟩
      · refine h.ends e ?_
        rw [List.append_cons, List.getLast?_append_of_ne_nil _ some]
        exact he
      · exact h.spaces e (List.mem_append_right _ (List.mem_cons_of_mem _ he))

/-- A collapsed text is its words with a space between them. -/
theorem IsCollapsed.collapseChars_eq {text : List Char} (h : IsCollapsed text) :
    collapseChars text = text := by
  rcases h.cases with rfl | alone | ⟨word, later, first, cut, some, inner⟩
  · rfl
  · rw [collapseChars, words_of_isWord alone]
    rfl
  · have shorter : later.length < text.length := by
      rw [cut, List.length_append, List.length_cons]
      omega
    have same : unwords (words later) = later := inner.collapseChars_eq
    have further : words later ≠ [] := fun none => some (by rw [← same, none]; rfl)
    rw [cut, collapseChars, words_append_blank rfl, words_of_isWord first, List.singleton_append,
      unwords_cons word further, same]
termination_by text.length

/-- What collapsing makes is collapsed. -/
theorem isCollapsed_collapseChars (text : List Char) : IsCollapsed (collapseChars text) :=
  isCollapsed_unwords fun _ inside => (of_mem_words inside).1

/-- The texts that collapsing leaves as they are. -/
theorem collapseChars_eq_self_iff : collapseChars text = text ↔ IsCollapsed text :=
  ⟨fun same => same ▸ isCollapsed_collapseChars text, IsCollapsed.collapseChars_eq⟩

/-! ## Words of strings -/

/-- The words of a text: what stands between its blanks, without the empty pieces. -/
def wordsOf (text : String) : List (List Char) :=
  (text.toList.splitOnP isBlank).filter (· ≠ [])

/-- Texts collapse to one exactly when they have the same words. -/
theorem collapse_eq_iff {left right : String} :
    collapse left = collapse right ↔ wordsOf left = wordsOf right := by
  unfold wordsOf
  rw [← words_eq, ← words_eq, collapse, collapse, String.ofList_inj]
  constructor
  · intro same
    rw [← words_collapseChars, same, words_collapseChars]
  · intro same
    rw [collapseChars, same, collapseChars]

/-- Nothing is left of a text exactly when it has no words. -/
theorem collapse_eq_empty_iff {text : String} : collapse text = "" ↔ wordsOf text = [] :=
  (collapse_eq_iff : collapse text = collapse "" ↔ wordsOf text = wordsOf "")

/-- What collapsing makes of a text is collapsed. -/
theorem isCollapsed_collapse (text : String) : IsCollapsed (collapse text).toList := by
  rw [collapse, String.toList_ofList]
  exact isCollapsed_collapseChars text.toList

/-- A collapsed text stays as it is. -/
theorem collapse_eq_self_iff {text : String} : collapse text = text ↔ IsCollapsed text.toList := by
  rw [← collapseChars_eq_self_iff, ← String.toList_inj, collapse, String.toList_ofList]

end CodeDelta.Text
