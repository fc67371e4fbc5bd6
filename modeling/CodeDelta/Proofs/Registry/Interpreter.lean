import CodeDelta.Registry.Interpreter
import CodeDelta.Proofs.Text.Split
import CodeDelta.Proofs.Text.Utf8

/-!
# The interpreter in a first line

A first line is read from the outside in: the path in front of the command (`ofPath?_append`), then
`env` (`ofCommand?_env`) or the name itself (`ofCommand?_name`). A name holds no blank, no slash and
no dash, so none of the parts in front of it can reach into it.
-/

namespace CodeDelta.Interpreter

open Text

/-- Whether a text can be the name of an interpreter. -/
def IsName (name : List Char) : Prop := name ≠ [] ∧ ∀ c ∈ name, isNameChar c = true

instance (name : List Char) : Decidable (IsName name) :=
  decidable_of_iff (name ≠ [] ∧ name.all isNameChar = true) (and_congr_right' List.all_eq_true)

/-- A letter is one of A to Z or of a to z. -/
theorem toNat_of_isAlpha {c : Char} (h : c.isAlpha = true) :
    (65 ≤ c.toNat ∧ c.toNat ≤ 90) ∨ (97 ≤ c.toNat ∧ c.toNat ≤ 122) := by
  rcases Bool.or_eq_true_iff.1 h with upper | lower
  · exact Or.inl (of_decide_eq_true upper)
  · obtain ⟨above, below⟩ := Bool.and_eq_true_iff.1 lower
    exact Or.inr ⟨of_decide_eq_true above, of_decide_eq_true below⟩

/-- A character of a name is no blank. -/
theorem not_isBlank_of_isNameChar {c : Char} (h : isNameChar c = true) : isBlank c = false := by
  rcases Bool.or_eq_true_iff.1 h with letter | underscore
  · have bounds := toNat_of_isAlpha letter
    unfold isBlank
    simp only [Bool.or_eq_false_iff, Bool.and_eq_false_iff, decide_eq_false_iff_not,
      beq_eq_false_iff_ne]
    omega
  · rw [eq_of_beq underscore]
    rfl

/-- A name starts with one of its characters. -/
theorem IsName.exists_cons {name : List Char} (h : IsName name) :
    ∃ c rest, name = c :: rest ∧ isNameChar c = true := by
  obtain ⟨nonempty, chars⟩ := h
  obtain ⟨c, rest, rfl⟩ := List.exists_cons_of_ne_nil nonempty
  exact ⟨c, rest, rfl, chars c List.mem_cons_self⟩

/-- A name that no further character of a name follows is read whole. -/
theorem name?_append {name rest : List Char} (h : IsName name)
    (stops : ∀ c ∈ rest.head?, isNameChar c = false) : name? (name ++ rest) = some name := by
  have taken : (name ++ rest).takeWhile isNameChar = name := by
    rw [List.takeWhile_append_of_pos h.2]
    cases rest with
    | nil => rw [List.takeWhile_nil, List.append_nil]
    | cons c rest =>
      rw [List.takeWhile_cons_of_neg (Bool.eq_false_iff.1 (stops c rfl)), List.append_nil]
  obtain ⟨c, later, rfl, -⟩ := h.exists_cons
  unfold name?
  rw [taken]

/-! ## Commands -/

/-- Blanks are passed over only where there is one. -/
theorem afterBlanks?_eq_none {text : List Char} (h : ∀ c ∈ text.head?, isBlank c = false) :
    afterBlanks? text = none := by
  cases text with
  | nil => rfl
  | cons c rest => exact if_neg (Bool.eq_false_iff.1 (h c rfl))

/-- A text that starts with no dash has no options in front. -/
theorem afterOptions_of_ne_dash {text : List Char} (h : text.head? ≠ some '-') :
    afterOptions text = text := by
  have none_ : afterOption? text = none := by
    unfold afterOption?
    split
    · exact absurd rfl h
    · rfl
  rw [afterOptions]
  split
  · next found => exact absurd (found.symm.trans none_) (Option.some_ne_none _)
  · rfl

/-- Behind `env` and blanks a name is the command's. -/
theorem ofCommand?_env {rest text name : List Char} (blanks : afterBlanks? rest = some text)
    (h : name? (afterOptions text) = some name) :
    ofCommand? (['e', 'n', 'v'] ++ rest) = some name := by
  unfold ofCommand?
  rw [dropLead?_append, Option.bind_some, blanks, Option.bind_some, h]
  rfl

/-- The three letters of `env` in front of a name are the whole name, a part of it, or reach beyond
it; only behind the whole name can blanks follow. -/
theorem afterBlanks?_behind_env {name rest later : List Char} (h : IsName name)
    (stops : ∀ c ∈ rest.head?, isNameChar c = false)
    (plain : name = ['e', 'n', 'v'] → ∀ c ∈ rest.head?, isBlank c = false)
    (led : dropLead? ['e', 'n', 'v'] (name ++ rest) = some later) : afterBlanks? later = none := by
  have whole := eq_of_dropLead? led
  refine afterBlanks?_eq_none fun c hc => ?_
  rcases List.append_eq_append_iff.1 whole with ⟨more, env, behind⟩ | ⟨more, longer, rfl⟩
  · cases more with
    | nil =>
      rw [List.append_nil] at env
      rw [List.nil_append] at behind
      exact plain env.symm c (by rw [behind]; exact hc)
    | cons d more =>
      -- A letter of `env` would have to stop the name.
      have letter : isNameChar d = true := by
        have inside : d ∈ ['e', 'n', 'v'] := by
          rw [env]
          exact List.mem_append_right name List.mem_cons_self
        simp only [List.mem_cons, List.not_mem_nil, or_false] at inside
        rcases inside with rfl | rfl | rfl <;> rfl
      have first := stops d (by rw [behind]; rfl)
      exact absurd (first.symm.trans letter) Bool.false_ne_true
  · cases more with
    | nil =>
      rw [List.append_nil] at longer
      exact plain longer c hc
    | cons d more =>
      obtain rfl : d = c := Option.some_inj.1 hc
      refine not_isBlank_of_isNameChar (h.2 d ?_)
      rw [longer]
      exact List.mem_append_right _ List.mem_cons_self

/-- A command that is a name has it, unless the name is `env` and blanks follow. -/
theorem ofCommand?_name {name rest : List Char} (h : IsName name)
    (stops : ∀ c ∈ rest.head?, isNameChar c = false)
    (plain : name = ['e', 'n', 'v'] → ∀ c ∈ rest.head?, isBlank c = false) :
    ofCommand? (name ++ rest) = some name := by
  have no_env : ((dropLead? ['e', 'n', 'v'] (name ++ rest)).bind fun later =>
      (afterBlanks? later).bind fun text => name? (afterOptions text)) = none := by
    rw [Option.bind_eq_none_iff]
    intro later led
    rw [afterBlanks?_behind_env h stops plain led, Option.bind_none]
  unfold ofCommand?
  dsimp only
  rw [no_env, Option.none_or, name?_append h stops]

/-! ## Paths -/

/-- A text whose first run of characters has no slash names no directory. -/
theorem afterSlashes_eq_nil {text : List Char} (h : '/' ∉ text.takeWhile fun c => !isBlank c) :
    afterSlashes text = [] := by
  induction text with
  | nil => rfl
  | cons c rest ih =>
    rw [afterSlashes]
    by_cases blank : isBlank c = true
    · rw [if_pos blank]
    · rw [List.takeWhile_cons_of_pos (by simpa using blank), List.mem_cons, not_or] at h
      have other : ¬(c == '/') = true := fun slash => h.1 (eq_of_beq slash).symm
      rw [if_neg blank, if_neg other, ih h.2]

/-- What follows a directory's slash is the last text behind a slash. -/
theorem afterSlashes_append {directory command : List Char}
    (dense : ∀ c ∈ directory, isBlank c = false)
    (last : '/' ∉ command.takeWhile fun c => !isBlank c) :
    ∃ others, afterSlashes (directory ++ '/' :: command) = others ++ [command] := by
  induction directory with
  | nil =>
    refine ⟨[], ?_⟩
    have here : afterSlashes ('/' :: command) = command :: afterSlashes command := rfl
    rw [List.nil_append, here, afterSlashes_eq_nil last, List.nil_append]
  | cons c directory ih =>
    obtain ⟨others, found⟩ := ih fun d hd => dense d (List.mem_cons_of_mem c hd)
    have shown : ¬isBlank c = true := Bool.eq_false_iff.1 (dense c List.mem_cons_self)
    rw [List.cons_append, afterSlashes, if_neg shown, found]
    split
    · exact ⟨_ :: others, rfl⟩
    · exact ⟨others, rfl⟩

/-- The name in a command behind a directory is that of the command: the longest path is dropped
first. -/
theorem ofPath?_append {directory command name : List Char}
    (dense : ∀ c ∈ directory, isBlank c = false)
    (last : '/' ∉ command.takeWhile fun c => !isBlank c) (h : ofCommand? command = some name) :
    ofPath? (directory ++ '/' :: command) = some name := by
  obtain ⟨others, found⟩ := afterSlashes_append dense last
  unfold ofPath?
  rw [found, List.reverse_concat, List.cons_append, List.findSome?_cons, h]

/-! ## Contents -/

/-- The content of a file names what its first line does. -/
theorem ofContent?_of_firstLine {content : List UInt8} {line : String}
    (h : firstLine content = encodeUtf8 line.toList) : ofContent? content = ofLine? line := by
  unfold ofContent?
  rw [h, decodeUtf8_encodeUtf8]
  dsimp only
  rw [String.ofList_toList]

/-- A text in one line is the first line of what it is written in front of. -/
theorem firstLine_encodeUtf8 {line : List Char} (unbroken : '\n' ∉ line) (rest : List Char) :
    firstLine (encodeUtf8 (line ++ '\n' :: rest)) = encodeUtf8 line := by
  have stays : ∀ byte ∈ encodeUtf8 line, (byte != 10) = true := by
    intro byte inside
    rw [bne_iff_ne]
    rintro rfl
    exact ascii_not_mem_encodeUtf8 (by decide : '\n'.toNat < 0x80) unbroken inside
  have bytes : encodeUtf8 (line ++ '\n' :: rest) = encodeUtf8 line ++ 10 :: encodeUtf8 rest := by
    unfold encodeUtf8
    rw [List.flatMap_append, List.flatMap_cons]
    rfl
  calc firstLine (encodeUtf8 (line ++ '\n' :: rest))
      = (encodeUtf8 line ++ 10 :: encodeUtf8 rest).takeWhile fun byte => byte != 10 := by
        rw [bytes, firstLine]
    _ = encodeUtf8 line ++ (10 :: encodeUtf8 rest).takeWhile fun byte => byte != 10 :=
        List.takeWhile_append_of_pos stays
    _ = encodeUtf8 line := by
        rw [List.takeWhile_cons_of_neg (by decide), List.append_nil]

end CodeDelta.Interpreter
