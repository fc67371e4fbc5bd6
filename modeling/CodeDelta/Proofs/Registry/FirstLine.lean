import CodeDelta.Proofs.Registry.Interpreter
import CodeDelta.Proofs.Text.Trim

/-!
# First lines that name an interpreter

A first line may hold, behind `#!`, blanks, a directory, `env` with options, the name and some rest.
Every part is passed over as a whole, since the next one starts with a character that cannot belong
to it: a directory ends in the last slash before a blank (`ofPath?_directory`), an option at a blank
(`afterOptions_append`), the name where no letter follows. The blanks at the end of the line are cut
off first, and they belong to the rest (`ofLine?_command`).
-/

namespace CodeDelta.Interpreter

open Text

/-- A run of spaces and tabs, which may be empty. -/
def IsGap (text : List Char) : Prop := ∀ c ∈ text, c = ' ' ∨ c = '\t'

instance (text : List Char) : Decidable (IsGap text) :=
  List.decidableBAll (fun c => c = ' ' ∨ c = '\t') text

/-- What may stand in front of a command: nothing, or a text without blanks that ends in a slash. -/
def IsDirectory (text : List Char) : Prop :=
  text = [] ∨ (∃ path, text = path ++ ['/']) ∧ ∀ c ∈ text, isBlank c = false

/-- An option of `env` with the spaces and tabs behind it. -/
structure EnvOption where
  /-- What follows the dash. -/
  body : List Char
  /-- The spaces and tabs behind it. -/
  gap : List Char
  /-- Something follows the dash. -/
  body_ne_nil : body ≠ []
  /-- The option ends at the first blank. -/
  dense : ∀ c ∈ body, isBlank c = false
  /-- Something separates it from what follows. -/
  gap_ne_nil : gap ≠ []
  /-- These are spaces and tabs. -/
  isGap : IsGap gap

/-- An option as it stands in a line. -/
def EnvOption.text (option : EnvOption) : List Char := '-' :: (option.body ++ option.gap)

variable {blanks directory gap name rest text : List Char}

/-! ## Gaps and options -/

/-- Spaces and tabs are blanks. -/
theorem IsGap.isBlank (h : IsGap gap) : ∀ c ∈ gap, isBlank c = true := by
  intro c inside
  rcases h c inside with rfl | rfl <;> rfl

/-- A gap is passed over up to the text behind it. -/
theorem dropWhile_gap (h : IsGap gap) (starts : ∀ c ∈ text.head?, Text.isBlank c = false) :
    (gap ++ text).dropWhile Text.isBlank = text := by
  rw [List.dropWhile_append_of_pos h.isBlank]
  cases text with
  | nil => rfl
  | cons c text => exact List.dropWhile_cons_of_neg (Bool.eq_false_iff.1 (starts c rfl))

/-- A run of characters ends at a gap. -/
theorem takeWhile_gap (h : IsGap gap) (some_ : gap ≠ []) (text : List Char) :
    (gap ++ text).takeWhile (fun c => !Text.isBlank c) = [] := by
  obtain ⟨b, more, rfl⟩ := List.exists_cons_of_ne_nil some_
  refine List.takeWhile_cons_of_neg ?_
  rw [h.isBlank b List.mem_cons_self]
  exact Bool.false_ne_true

/-- Blanks that have to be there are passed over in the same way. -/
theorem afterBlanks?_gap (h : IsGap gap) (some_ : gap ≠ [])
    (starts : ∀ c ∈ text.head?, Text.isBlank c = false) :
    afterBlanks? (gap ++ text) = some text := by
  obtain ⟨c, more, rfl⟩ := List.exists_cons_of_ne_nil some_
  have later : IsGap more := fun d inside => h d (List.mem_cons_of_mem c inside)
  rw [List.cons_append, afterBlanks?, if_pos (h.isBlank c List.mem_cons_self),
    dropWhile_gap later starts]

/-- An option is passed over with the gap behind it. -/
theorem afterOption?_text (option : EnvOption)
    (starts : ∀ c ∈ text.head?, Text.isBlank c = false) :
    afterOption? (option.text ++ text) = some text := by
  obtain ⟨body, gap, some_, dense, apart, isGap⟩ := option
  obtain ⟨c, more, rfl⟩ := List.exists_cons_of_ne_nil some_
  obtain ⟨b, wider, rfl⟩ := List.exists_cons_of_ne_nil apart
  have shown : ¬Text.isBlank c = true := Bool.eq_false_iff.1 (dense c List.mem_cons_self)
  -- The option reaches as far as its own characters: the first of the gap is a blank.
  have passed : (more ++ (b :: wider ++ text)).dropWhile (fun d => !Text.isBlank d) =
      b :: wider ++ text := by
    have inside : ∀ d ∈ more, (!Text.isBlank d) = true := fun d hd => by
      rw [dense d (List.mem_cons_of_mem c hd)]
      rfl
    rw [List.dropWhile_append_of_pos inside, List.cons_append, List.dropWhile_cons_of_neg]
    rw [isGap.isBlank b List.mem_cons_self]
    exact Bool.false_ne_true
  simp only [EnvOption.text, List.cons_append, List.append_assoc, afterOption?]
  rw [if_neg shown]
  exact (congrArg afterBlanks? passed).trans (afterBlanks?_gap isGap apart starts)

/-- All options are passed over, up to a text that is none. -/
theorem afterOptions_append (options : List EnvOption) (stops : text.head? ≠ some '-')
    (starts : ∀ c ∈ text.head?, Text.isBlank c = false) :
    afterOptions (options.flatMap EnvOption.text ++ text) = text := by
  induction options with
  | nil => exact afterOptions_of_ne_dash stops
  | cons option options ih =>
    have next : ∀ c ∈ (options.flatMap EnvOption.text ++ text).head?, Text.isBlank c = false := by
      cases options with
      | nil => exact starts
      | cons other options =>
        intro c hc
        obtain rfl : '-' = c := Option.some_inj.1 hc
        rfl
    have one := afterOption?_text option next
    rw [← List.append_assoc, ← List.flatMap_cons] at one
    rw [afterOptions]
    split
    · next found =>
      rw [one] at found
      rw [← Option.some.inj found, ih]
    · next none_ => exact absurd (one.symm.trans none_) (Option.some_ne_none _)

/-! ## Commands behind a directory -/

/-- A character of a name is no slash and no dash. -/
theorem IsName.head?_append (h : IsName name) (rest : List Char) :
    ∃ c, (name ++ rest).head? = some c ∧ isNameChar c = true := by
  obtain ⟨c, more, rfl, letter⟩ := h.exists_cons
  exact ⟨c, rfl, letter⟩

/-- Behind `env`, a gap and options a name is the command's. -/
theorem ofCommand?_options (options : List EnvOption) (apart : IsGap gap) (some_ : gap ≠ [])
    (proper : IsName name) (stops : ∀ c ∈ rest.head?, isNameChar c = false) :
    ofCommand? (['e', 'n', 'v'] ++ (gap ++ (options.flatMap EnvOption.text ++ (name ++ rest)))) =
      some name := by
  obtain ⟨c, first, letter⟩ := proper.head?_append rest
  have starts : ∀ d ∈ (name ++ rest).head?, Text.isBlank d = false := by
    intro d hd
    obtain rfl := Option.some_inj.1 (first.symm.trans hd)
    exact not_isBlank_of_isNameChar letter
  have no_dash : (name ++ rest).head? ≠ some '-' := by
    rw [first]
    rintro dash
    obtain rfl := Option.some_inj.1 dash
    exact absurd letter (by decide)
  have next : ∀ d ∈ (options.flatMap EnvOption.text ++ (name ++ rest)).head?,
      Text.isBlank d = false := by
    cases options with
    | nil => exact starts
    | cons option options =>
      intro d hd
      obtain rfl : '-' = d := Option.some_inj.1 hd
      rfl
  refine ofCommand?_env (afterBlanks?_gap apart some_ next) ?_
  rw [afterOptions_append options no_dash starts, name?_append proper stops]

/-- A directory in front of a command is passed over. -/
theorem ofPath?_directory {command : List Char} (path : IsDirectory directory)
    (last : '/' ∉ command.takeWhile fun c => !Text.isBlank c) (h : ofCommand? command = some name) :
    ofPath? (directory ++ command) = some name := by
  rcases path with rfl | ⟨⟨path, rfl⟩, dense⟩
  · unfold ofPath?
    rw [List.nil_append, afterSlashes_eq_nil last, List.reverse_nil, List.nil_append,
      List.findSome?_cons, h]
  · rw [List.append_assoc, List.singleton_append]
    exact ofPath?_append (fun c inside => dense c (List.mem_append_left _ inside)) last h

/-! ## Lines -/

/-- The blanks at the end of a line are taken from what follows the name. -/
theorem trimRight_name (proper : IsName name) (front rest : List Char) :
    trimRight (front ++ (name ++ rest)) = front ++ (name ++ trimRight rest) := by
  obtain ⟨before, c, rfl⟩ : ∃ before c, name = before ++ [c] :=
    ⟨name.dropLast, name.getLast proper.1, (List.dropLast_append_getLast proper.1).symm⟩
  have shown : Text.isBlank c = false :=
    not_isBlank_of_isNameChar (proper.2 c (List.mem_append_right _ List.mem_cons_self))
  have trimmed := trimRight_append_cons shown (front ++ before) rest
  simpa only [List.append_assoc, List.singleton_append] using trimmed

/-- What trimming leaves of the rest of a line starts as the rest does. -/
theorem head?_trimRight {c : Char} (h : c ∈ (trimRight rest).head?) : c ∈ rest.head? := by
  obtain ⟨blank, whole⟩ := List.rdropWhile_prefix Text.isBlank rest
  rw [trimRight_eq_rdropWhile] at h
  rw [← whole, List.head?_append, Option.mem_def.1 h]
  rfl

/-- Nothing comes into the first run of characters when the end of a text is trimmed. -/
theorem takeWhile_trimRight_subset (rest : List Char) :
    (trimRight rest).takeWhile (fun c => !Text.isBlank c) ⊆
      rest.takeWhile fun c => !Text.isBlank c := by
  obtain ⟨blank, whole⟩ := List.rdropWhile_prefix Text.isBlank rest
  rw [trimRight_eq_rdropWhile]
  nth_rewrite 2 [← whole]
  rw [List.takeWhile_append]
  split_ifs
  · exact fun c inside => List.mem_append_left _ (List.takeWhile_subset _ inside)
  · exact fun c inside => inside

/-- A line names what the command behind its directory does. -/
theorem ofLine?_command (lead rest : List Char) (apart : IsGap blanks)
    (path : IsDirectory directory) (proper : IsName name)
    (starts : ∀ c ∈ (lead ++ (name ++ trimRight rest)).head?, Text.isBlank c = false)
    (last : '/' ∉ (lead ++ (name ++ trimRight rest)).takeWhile fun c => !Text.isBlank c)
    (h : ofCommand? (lead ++ (name ++ trimRight rest)) = some name) :
    ofLine? (String.ofList
        (['#', '!'] ++ (blanks ++ (directory ++ (lead ++ (name ++ rest)))))) =
      some (lowerAscii (String.ofList name)) := by
  have trimmed : trimRight (['#', '!'] ++ (blanks ++ (directory ++ (lead ++ (name ++ rest))))) =
      '#' :: '!' :: (blanks ++ (directory ++ (lead ++ (name ++ trimRight rest)))) := by
    have whole := trimRight_name proper (['#', '!'] ++ (blanks ++ (directory ++ lead))) rest
    simpa only [List.append_assoc, List.cons_append, List.nil_append] using whole
  have next : ∀ c ∈ (directory ++ (lead ++ (name ++ trimRight rest))).head?,
      Text.isBlank c = false := by
    rcases path with rfl | ⟨⟨path, rfl⟩, dense⟩
    · exact starts
    · intro c hc
      rw [List.head?_append_of_ne_nil _ (List.append_ne_nil_of_right_ne_nil _ (by simp))] at hc
      exact dense c (List.mem_of_head? hc)
  unfold ofLine?
  rw [String.toList_ofList, trimmed]
  simp only [dropWhile_gap apart next, ofPath?_directory path last h, Option.map_some]

/-- A line with `env` names what follows the options. -/
theorem ofLine?_env (options : List EnvOption) (rest : List Char) (apart : IsGap blanks)
    (path : IsDirectory directory) (behind : IsGap gap) (some_ : gap ≠ []) (proper : IsName name)
    (stops : ∀ c ∈ (trimRight rest).head?, isNameChar c = false) :
    ofLine? (String.ofList (['#', '!'] ++ (blanks ++ (directory ++ (['e', 'n', 'v'] ++ (gap ++
        (options.flatMap EnvOption.text ++ (name ++ rest)))))))) =
      some (lowerAscii (String.ofList name)) := by
  have command := ofCommand?_options options behind some_ proper stops
  -- Up to the first blank stands `env`, which holds no slash.
  have last : '/' ∉ (['e', 'n', 'v'] ++ (gap ++ (options.flatMap EnvOption.text ++
      (name ++ trimRight rest)))).takeWhile fun c => !Text.isBlank c := by
    rw [List.takeWhile_append_of_pos (by simp [Text.isBlank]), takeWhile_gap behind some_]
    decide
  have line := ofLine?_command (['e', 'n', 'v'] ++ (gap ++ options.flatMap EnvOption.text)) rest
    apart path proper (fun c hc => by obtain rfl := Option.some_inj.1 hc; rfl)
    (by simpa only [List.append_assoc] using last) (by simpa only [List.append_assoc] using command)
  simpa only [List.append_assoc] using line

/-- A line with a name alone names it, unless the name is `env` and blanks follow. -/
theorem ofLine?_alone (rest : List Char) (apart : IsGap blanks) (path : IsDirectory directory)
    (proper : IsName name) (stops : ∀ c ∈ (trimRight rest).head?, isNameChar c = false)
    (plain : name = ['e', 'n', 'v'] → ∀ c ∈ (trimRight rest).head?, Text.isBlank c = false)
    (last : '/' ∉ (trimRight rest).takeWhile fun c => !Text.isBlank c) :
    ofLine? (String.ofList (['#', '!'] ++ (blanks ++ (directory ++ (name ++ rest))))) =
      some (lowerAscii (String.ofList name)) := by
  obtain ⟨c, first, letter⟩ := proper.head?_append (trimRight rest)
  have shown : ∀ c ∈ name, (!Text.isBlank c) = true := fun c inside => by
    rw [not_isBlank_of_isNameChar (proper.2 c inside)]
    rfl
  refine ofLine?_command [] rest apart path proper (fun d hd => ?_) ?_
    (ofCommand?_name proper stops plain)
  · obtain rfl := Option.some_inj.1 (first.symm.trans hd)
    exact not_isBlank_of_isNameChar letter
  · rw [List.nil_append, List.takeWhile_append_of_pos shown, List.mem_append, not_or]
    exact ⟨fun inside => absurd (proper.2 '/' inside) (by decide), last⟩

/-- A line that does not start with `#!` names nothing. -/
theorem ofLine?_unmarked {line : String} (h : ¬['#', '!'] <+: line.toList) :
    ofLine? line = none := by
  unfold ofLine?
  split
  · next rest trimmed =>
    -- What trimming leaves is the beginning of the line.
    have front := List.rdropWhile_prefix Text.isBlank line.toList
    rw [← trimRight_eq_rdropWhile, trimmed] at front
    exact absurd ((List.prefix_append ['#', '!'] rest).trans front) h
  · rfl

/-- The recognized first lines: behind `#!`, spaces or tabs, and a directory stands `env` with
options and a name, or a name alone; then the line names it, in small letters. A name alone is not
`env`, and no slash may follow it before the first blank, since what stands in front of the last
slash is the directory. A line that does not start with `#!` names nothing. -/
theorem ofLine?_recognized {blanks directory name rest : List Char} (apart : IsGap blanks)
    (path : IsDirectory directory) (proper : IsName name)
    (stops : ∀ c ∈ rest.head?, isNameChar c = false) :
    (∀ (gap : List Char) (options : List EnvOption), gap ≠ [] → IsGap gap →
      ofLine? (String.ofList (['#', '!'] ++ (blanks ++ (directory ++ (['e', 'n', 'v'] ++ (gap ++
          (options.flatMap EnvOption.text ++ (name ++ rest)))))))) =
        some (lowerAscii (String.ofList name))) ∧
    (name ≠ ['e', 'n', 'v'] → '/' ∉ rest.takeWhile (fun c => !Text.isBlank c) →
      ofLine? (String.ofList (['#', '!'] ++ (blanks ++ (directory ++ (name ++ rest))))) =
        some (lowerAscii (String.ofList name))) ∧
    ∀ line : String, ¬['#', '!'] <+: line.toList → ofLine? line = none := by
  have stops' : ∀ c ∈ (trimRight rest).head?, isNameChar c = false :=
    fun c hc => stops c (head?_trimRight hc)
  refine ⟨fun gap options some_ behind => ?_, fun other last => ?_, fun line => ofLine?_unmarked⟩
  · exact ofLine?_env options rest apart path behind some_ proper stops'
  · exact ofLine?_alone rest apart path proper stops' (fun same => absurd same other)
      fun inside => last (takeWhile_trimRight_subset rest inside)

/-- The option that has `env` split the rest of the line. -/
def EnvOption.split : EnvOption where
  body := ['S']
  gap := [' ', '\t']
  body_ne_nil := List.cons_ne_nil _ _
  dense := by simp [Text.isBlank]
  gap_ne_nil := List.cons_ne_nil _ _
  isGap := by decide

/-- A line with a directory, an option and a version, and the same name without them. -/
theorem ofLine?_recognized_python :
    IsGap [' '] ∧ IsDirectory ['/', 'b', 'i', 'n', '/'] ∧ IsName ['P', 'y', 't', 'h', 'o', 'n'] ∧
    ofLine? "#! /bin/env -S \tPython3.11 -u /x\n" = some "python" ∧
    ofLine? "#! /bin/Python3.11 -u /x\n" = some "python" := by
  have gap : IsGap [' '] := by decide
  have path : IsDirectory ['/', 'b', 'i', 'n', '/'] :=
    Or.inr ⟨⟨['/', 'b', 'i', 'n'], rfl⟩, by simp [Text.isBlank]⟩
  have proper : IsName ['P', 'y', 't', 'h', 'o', 'n'] := by decide
  obtain ⟨searched, alone, -⟩ := ofLine?_recognized gap path proper
    (fun c hc => by obtain rfl := Option.some_inj.1 hc; rfl :
      ∀ c ∈ ['3', '.', '1', '1', ' ', '-', 'u', ' ', '/', 'x', '\n'].head?, isNameChar c = false)
  exact ⟨gap, path, proper, searched [' '] [.split] (List.cons_ne_nil _ _) gap,
    alone (by decide) (by decide)⟩

/-! ## The first lines of scripts -/

/-- The lines that scripts start with: their interpreter searched for, or named by its path. -/
def scriptLines (name : String) : List String := ["#!/usr/bin/env " ++ name, "#!/usr/bin/" ++ name]

/-- Both are one line. -/
theorem not_mem_of_mem_scriptLines {name line : String} (proper : IsName name.toList)
    (h : line ∈ scriptLines name) : '\n' ∉ line.toList := by
  have unbroken : '\n' ∉ name.toList := fun inside =>
    absurd (proper.2 '\n' inside) (by decide)
  rcases List.mem_cons.1 h with rfl | later
  · rw [String.toList_append, List.mem_append, not_or]
    exact ⟨by decide, unbroken⟩
  · obtain rfl := List.mem_singleton.1 later
    rw [String.toList_append, List.mem_append, not_or]
    exact ⟨by decide, unbroken⟩

/-- Both lines name their interpreter, in small letters. -/
theorem ofLine?_of_mem_scriptLines {name line : String} (proper : IsName name.toList)
    (h : line ∈ scriptLines name) : ofLine? line = some (lowerAscii name) := by
  have path : IsDirectory "/usr/bin/".toList :=
    Or.inr ⟨⟨"/usr/bin".toList, rfl⟩, by simp [Text.isBlank]⟩
  have unled : IsGap [] := fun _ none => absurd none List.not_mem_nil
  have bare : ∀ c ∈ ([] : List Char).head?, isNameChar c = false := fun _ none => nomatch none
  have small : lowerAscii (String.ofList name.toList) = lowerAscii name := by
    rw [String.ofList_toList]
  rw [← small]
  rcases List.mem_cons.1 h with rfl | later
  · rw [← ofLine?_env [] [] unled path (by decide : IsGap [' ']) (List.cons_ne_nil _ _) proper bare]
    exact congrArg ofLine? (String.toList_inj.1 (by simp))
  · obtain rfl := List.mem_singleton.1 later
    rw [← ofLine?_alone [] unled path proper bare (fun _ _ none => nomatch none) List.not_mem_nil]
    exact congrArg ofLine? (String.toList_inj.1 (by simp))

end CodeDelta.Interpreter
