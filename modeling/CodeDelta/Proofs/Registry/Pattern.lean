import CodeDelta.Proofs.Registry.Interpreter
import Mathlib.Data.List.Basic

/-!
# The pattern of first lines

The first line of a script is recognized by the pattern
`^#!\s*(?:\S*/)?(?:env\s+(?:-\S+\s+)*)?([A-Za-z_]+)`, of whose matches the first counts in the order
of a search that goes back: a repetition takes as much as it can and then less, and an optional part
is first tried. The texts that a pattern leaves are listed in this order (`Pattern.rests`).

The parts of this pattern hardly compete. What follows a run of blanks cannot start with one, nor
what follows an option with a character of it, so of all ways to cut there only the longest leads to
a name (`flatMap_rests_many_one`). Only the end of the path and `env` are open, and they are tried
as the interpreter is read (`ofLine?_eq_captured?`).
-/

namespace CodeDelta

/-- A pattern that a text may start with. -/
inductive Pattern where
  /-- These characters. -/
  | exactly (lead : List Char)
  /-- A character of a kind. -/
  | one (kind : Char → Bool)
  /-- One pattern and then another one. -/
  | andThen (first second : Pattern)
  /-- A pattern, if it is there. -/
  | perhaps (inner : Pattern)
  /-- A pattern as often as it is there. -/
  | many (inner : Pattern)

namespace Pattern

/-- What is left by repetitions of a step, those of most repetitions first. A step that takes
nothing is not repeated. -/
def repeated (step : List Char → List (List Char)) (text : List Char) : List (List Char) :=
  ((step text).flatMap fun rest =>
    if _h : rest.length < text.length then repeated step rest else []) ++ [text]
termination_by text.length

/-- What a pattern leaves of a text, in the order in which its ways to match are tried. -/
def rests : Pattern → List Char → List (List Char)
  | exactly lead, text => (Text.dropLead? lead text).toList
  | one kind, c :: rest => if kind c then [rest] else []
  | one _, [] => []
  | andThen first second, text => (first.rests text).flatMap second.rests
  | perhaps inner, text => inner.rests text ++ [text]
  | many inner, text => repeated inner.rests text

/-- A pattern once or more. -/
def onceOrMore (inner : Pattern) : Pattern := .andThen inner (.many inner)

/-- What a pattern takes of a text, in the same order. -/
def taken (pattern : Pattern) (text : List Char) : List (List Char) :=
  (pattern.rests text).map fun rest => text.take (text.length - rest.length)

/-- What a group takes behind a pattern in the first match of both. -/
def captured? (lead group : Pattern) (text : List Char) : Option (List Char) :=
  ((lead.rests text).flatMap group.taken).head?

/-! ## What is left -/

/-- A step that always takes something is repeated on all that it leaves. -/
theorem repeated_eq {step : List Char → List (List Char)} {text : List Char}
    (takes : ∀ rest ∈ step text, rest.length < text.length) :
    repeated step text = (step text).flatMap (repeated step) ++ [text] := by
  rw [repeated]
  congr 1
  exact List.flatMap_congr fun rest left => dif_pos (takes rest left)

/-- A character that is there is taken. -/
theorem length_lt_of_mem_rests_one {kind : Char → Bool} {text rest : List Char}
    (h : rest ∈ (one kind).rests text) : rest.length < text.length := by
  cases text with
  | nil => exact absurd h List.not_mem_nil
  | cons c text =>
    rw [rests] at h
    split_ifs at h
    · obtain rfl := List.mem_singleton.1 h
      exact Nat.lt_succ_self _
    · exact absurd h List.not_mem_nil

/-- No pattern leaves more than there was. -/
theorem length_le_of_mem_rests (pattern : Pattern) {text rest : List Char}
    (h : rest ∈ pattern.rests text) : rest.length ≤ text.length := by
  induction pattern generalizing text rest with
  | exactly lead =>
    rw [Text.eq_of_dropLead? (Option.mem_toList.1 h), List.length_append]
    exact Nat.le_add_left _ _
  | one kind => exact Nat.le_of_lt (length_lt_of_mem_rests_one h)
  | andThen first second ihFirst ihSecond =>
    obtain ⟨middle, left, right⟩ := List.mem_flatMap.1 h
    exact Nat.le_trans (ihSecond right) (ihFirst left)
  | perhaps inner ih =>
    rcases List.mem_append.1 h with left | same
    · exact ih left
    · exact (List.mem_singleton.1 same ▸ Nat.le_refl _)
  | many inner ih =>
    rw [rests] at h
    fun_induction repeated inner.rests text with
    | case1 text again =>
      rcases List.mem_append.1 h with later | same
      · obtain ⟨middle, left, right⟩ := List.mem_flatMap.1 later
        split_ifs at right with shorter
        · exact Nat.le_trans (again middle shorter right) (Nat.le_of_lt shorter)
        · exact absurd right List.not_mem_nil
      · exact List.mem_singleton.1 same ▸ Nat.le_refl _

/-- A run of characters of a kind is left as it is when the first one is of another kind, and
otherwise with and without its first character. -/
theorem rests_many_one_cons (kind : Char → Bool) (c : Char) (text : List Char) :
    (many (one kind)).rests (c :: text) =
      if kind c then (many (one kind)).rests text ++ [c :: text] else [c :: text] := by
  rw [rests, repeated_eq fun _ => length_lt_of_mem_rests_one, rests]
  split_ifs
  · rw [List.flatMap_singleton, rests]
  · rfl

/-- Nothing is left of a run in nothing. -/
theorem rests_many_one_nil (kind : Char → Bool) : (many (one kind)).rests [] = [[]] := by
  rw [rests, repeated_eq fun _ => length_lt_of_mem_rests_one]
  rfl

/-- The longest run of characters is tried first. -/
theorem head?_rests_many_one (kind : Char → Bool) (text : List Char) :
    ((many (one kind)).rests text).head? = some (text.dropWhile kind) := by
  induction text with
  | nil => rw [rests_many_one_nil]; rfl
  | cons c text ih =>
    rw [rests_many_one_cons, List.dropWhile_cons]
    split_ifs
    · rw [List.head?_append, ih, Option.some_or]
    · rfl

/-- What goes on behind a run of characters sees only the text behind the longest one, when nothing
goes on in front of such a character. -/
theorem flatMap_rests_many_one {α : Type} {kind : Char → Bool} {next : List Char → List α}
    (stuck : ∀ c rest, kind c = true → next (c :: rest) = []) (text : List Char) :
    ((many (one kind)).rests text).flatMap next = next (text.dropWhile kind) := by
  induction text with
  | nil => rw [rests_many_one_nil, List.flatMap_singleton]; rfl
  | cons c text ih =>
    rw [rests_many_one_cons, List.dropWhile_cons]
    split_ifs with fits
    · rw [List.flatMap_append, ih, List.flatMap_singleton, stuck c text fits, List.append_nil]
    · exact List.flatMap_singleton _ _

end Pattern

namespace Interpreter

open Text Pattern

/-! ## The pattern and its parts -/

/-- Blanks, `\s+`. -/
def blankPattern : Pattern := .onceOrMore (.one isBlank)

/-- An option of `env`, `-\S+\s+`. -/
def optionPattern : Pattern :=
  .andThen (.exactly ['-']) (.andThen (.onceOrMore (.one fun c => !isBlank c)) blankPattern)

/-- A program that looks for the interpreter, `env\s+(?:-\S+\s+)*`. -/
def envPattern : Pattern :=
  .andThen (.exactly ['e', 'n', 'v']) (.andThen blankPattern (.many optionPattern))

/-- The path in front of a program, `\S*/`. -/
def pathPattern : Pattern := .andThen (.many (.one fun c => !isBlank c)) (.exactly ['/'])

/-- What stands in front of the name, `#!\s*(?:\S*/)?(?:env\s+(?:-\S+\s+)*)?`. -/
def leadPattern : Pattern :=
  .andThen (.exactly ['#', '!'])
    (.andThen (.many (.one isBlank)) (.andThen (.perhaps pathPattern) (.perhaps envPattern)))

/-- The name, `[A-Za-z_]+`. -/
def namePattern : Pattern := .onceOrMore (.one isNameChar)

/-- No name is taken of a text that starts otherwise. -/
theorem taken_namePattern_eq_nil {text : List Char}
    (other : ∀ c ∈ text.head?, isNameChar c = false) : namePattern.taken text = [] := by
  unfold Pattern.taken namePattern Pattern.onceOrMore
  rw [rests]
  cases text with
  | nil => rfl
  | cons c text =>
    rw [rests, if_neg (Bool.eq_false_iff.1 (other c rfl))]
    rfl

/-- No name starts with a blank. -/
theorem taken_namePattern_blank {c : Char} (blank : isBlank c = true) (text : List Char) :
    namePattern.taken (c :: text) = [] := by
  refine taken_namePattern_eq_nil fun d first => Bool.eq_false_iff.2 fun named => ?_
  obtain rfl := Option.some.inj first
  exact Bool.false_ne_true ((not_isBlank_of_isNameChar named).symm.trans blank)

/-- What stands in front of what a run of characters leaves is the run. -/
theorem take_length_sub_dropWhile (kind : Char → Bool) (text : List Char) :
    text.take (text.length - (text.dropWhile kind).length) = text.takeWhile kind := by
  have whole : text.length = (text.takeWhile kind).length + (text.dropWhile kind).length := by
    rw [← List.length_append, List.takeWhile_append_dropWhile]
  rw [whole, Nat.add_sub_cancel]
  exact (List.prefix_iff_eq_take.1 (List.takeWhile_prefix kind)).symm

/-- The longest name is taken first. -/
theorem head?_taken_namePattern (text : List Char) :
    (namePattern.taken text).head? = name? text := by
  cases text with
  | nil => rfl
  | cons c text =>
    by_cases named : isNameChar c = true
    · have rest : (c :: text).dropWhile isNameChar = text.dropWhile isNameChar :=
        List.dropWhile_cons_of_pos named
      unfold Pattern.taken namePattern Pattern.onceOrMore name?
      rw [rests, rests, if_pos named, List.flatMap_singleton, List.head?_map, head?_rests_many_one,
        Option.map_some, ← rest, take_length_sub_dropWhile, List.takeWhile_cons_of_pos named]
    · have other : isNameChar c = false := Bool.eq_false_iff.2 named
      unfold name?
      have first : ∀ d ∈ (c :: text).head?, isNameChar d = false := by
        intro d same
        obtain rfl := Option.some.inj same
        exact other
      rw [taken_namePattern_eq_nil first, List.takeWhile_cons_of_neg named]
      rfl

/-- Behind blanks a text goes on where it does not start with one. -/
theorem flatMap_blankPattern {α : Type} {next : List Char → List α}
    (stuck : ∀ c rest, isBlank c = true → next (c :: rest) = []) (text : List Char) :
    (blankPattern.rests text).flatMap next = (afterBlanks? text).elim [] next := by
  unfold blankPattern Pattern.onceOrMore
  rw [rests]
  cases text with
  | nil => rfl
  | cons c text =>
    rw [rests, afterBlanks?]
    split_ifs
    · rw [List.flatMap_singleton, flatMap_rests_many_one stuck]
      rfl
    · rfl

/-- Without a blank in front nothing goes on behind blanks. -/
theorem afterBlanks?_cons_of_not_isBlank {c : Char} (shown : isBlank c = false)
    (text : List Char) : afterBlanks? (c :: text) = none :=
  if_neg (Bool.eq_false_iff.1 shown)

/-- Without a dash in front there is no option. -/
theorem rests_optionPattern_cons {c : Char} (other : c ≠ '-') (text : List Char) :
    optionPattern.rests (c :: text) = [] := by
  have none_ : dropLead? ['-'] (c :: text) = none := if_neg (by simpa using other.symm)
  unfold optionPattern
  rw [rests, rests, none_]
  rfl

/-- Behind an option and blanks a text goes on where it does not start with a blank. -/
theorem flatMap_optionPattern {α : Type} {next : List Char → List α}
    (stuck : ∀ c rest, isBlank c = true → next (c :: rest) = []) (text : List Char) :
    (optionPattern.rests text).flatMap next = (afterOption? text).elim [] next := by
  unfold afterOption?
  split
  · next c rest =>
    have behind : ∀ d more, (!isBlank d) = true →
        (blankPattern.rests (d :: more)).flatMap next = [] := by
      intro d more shown
      rw [flatMap_blankPattern stuck, afterBlanks?_cons_of_not_isBlank (by simpa using shown)]
      rfl
    have dash : dropLead? ['-'] ('-' :: c :: rest) = some (c :: rest) := rfl
    have first : (one fun c => !isBlank c).rests (c :: rest) =
        if isBlank c then [] else [rest] := by
      rw [rests]
      cases isBlank c <;> rfl
    unfold optionPattern Pattern.onceOrMore
    rw [rests, rests, dash, Option.toList_some, List.flatMap_singleton, rests, rests, first]
    split_ifs
    · rfl
    · rw [List.flatMap_singleton, List.flatMap_assoc, flatMap_rests_many_one behind,
        flatMap_blankPattern stuck]
  · next other =>
    cases text with
    | nil => rfl
    | cons d more =>
      by_cases dash : d = '-'
      · subst dash
        cases more with
        | nil => rfl
        | cons c rest => exact absurd rfl (other c rest)
      · rw [rests_optionPattern_cons dash]
        rfl

/-- An option takes something. -/
theorem length_lt_of_mem_optionPattern {text rest : List Char}
    (h : rest ∈ optionPattern.rests text) : rest.length < text.length := by
  obtain ⟨middle, dash, later⟩ := List.mem_flatMap.1 h
  have whole := eq_of_dropLead? (Option.mem_toList.1 dash)
  have less := length_le_of_mem_rests _ later
  rw [whole, List.length_append]
  exact Nat.lt_of_le_of_lt less (Nat.lt_add_of_pos_left Nat.one_pos)

/-- Behind `env`'s options only the text behind all of them goes on to a name. -/
theorem flatMap_many_optionPattern (text : List Char) :
    ((many optionPattern).rests text).flatMap namePattern.taken =
      namePattern.taken (afterOptions text) := by
  have stuck : ∀ c rest, isBlank c = true →
      ((many optionPattern).rests (c :: rest)).flatMap namePattern.taken = [] := by
    intro c rest blank
    have other : c ≠ '-' := by
      rintro rfl
      exact absurd blank (by decide)
    rw [rests, repeated_eq fun _ => length_lt_of_mem_optionPattern, rests_optionPattern_cons other,
      List.flatMap_nil, List.nil_append, List.flatMap_singleton, taken_namePattern_blank blank]
  have step (text : List Char) :
      ((many optionPattern).rests text).flatMap namePattern.taken =
        ((afterOption? text).elim [] fun rest =>
          ((many optionPattern).rests rest).flatMap namePattern.taken) ++
          namePattern.taken text := by
    rw [← flatMap_optionPattern stuck, rests,
      repeated_eq fun _ => length_lt_of_mem_optionPattern, List.flatMap_append, List.flatMap_assoc,
      List.flatMap_singleton]
    simp only [rests]
  fun_induction afterOptions text with
  | case1 text rest option ih =>
    have dashed : namePattern.taken text = [] := by
      unfold afterOption? at option
      split at option
      · next c more =>
        exact taken_namePattern_eq_nil fun d first => Option.some.inj first ▸ rfl
      · exact absurd option.symm (Option.some_ne_none rest)
    rw [step, option, dashed, List.append_nil]
    exact ih
  | case2 text none_ =>
    rw [step, none_]
    rfl

/-- The texts behind the paths that a text starts with, the longest path first. -/
theorem rests_pathPattern (text : List Char) :
    pathPattern.rests text = (afterSlashes text).reverse := by
  have slash (c : Char) (text : List Char) :
      ((Pattern.exactly ['/']).rests (c :: text)) = if c == '/' then [text] else [] := by
    rw [rests, dropLead?, Bool.beq_comm]
    cases c == '/' <;> rfl
  unfold pathPattern
  rw [rests]
  induction text with
  | nil => rw [rests_many_one_nil]; rfl
  | cons c text ih =>
    rw [rests_many_one_cons, afterSlashes]
    cases blank : isBlank c with
    | true =>
      have other : ¬(c == '/') = true := by
        intro same
        obtain rfl := eq_of_beq same
        exact absurd blank (by decide)
      rw [if_neg (by decide), if_pos rfl, List.flatMap_singleton, slash, if_neg other]
      rfl
    | false =>
      rw [if_pos (by decide), if_neg (by decide), List.flatMap_append, ih, List.flatMap_singleton,
        slash]
      split_ifs
      · exact List.reverse_cons.symm
      · exact List.append_nil _

/-! ## Names that lines tell -/

/-- The first name behind `env`, or without it, is that of the command. -/
theorem head?_flatMap_envPattern (text : List Char) :
    (((perhaps envPattern).rests text).flatMap namePattern.taken).head? = ofCommand? text := by
  have stuck : ∀ c rest, isBlank c = true →
      namePattern.taken (afterOptions (c :: rest)) = [] := by
    intro c rest blank
    rw [afterOptions_of_ne_dash, taken_namePattern_blank blank]
    rintro dash
    obtain rfl := Option.some.inj dash
    exact absurd blank (by decide)
  have behind : ((envPattern.rests text).flatMap namePattern.taken).head? =
      (dropLead? ['e', 'n', 'v'] text).bind fun rest =>
        (afterBlanks? rest).bind fun rest => name? (afterOptions rest) := by
    unfold envPattern
    rw [rests, rests]
    cases dropLead? ['e', 'n', 'v'] text with
    | none => rfl
    | some rest =>
      rw [Option.toList_some, List.flatMap_singleton, rests, List.flatMap_assoc,
        funext flatMap_many_optionPattern, flatMap_blankPattern stuck, Option.bind_some]
      cases afterBlanks? rest with
      | none => rfl
      | some rest => exact head?_taken_namePattern _
  unfold ofCommand?
  rw [rests, List.flatMap_append, List.head?_append, List.flatMap_singleton, behind,
    head?_taken_namePattern]

/-- The first name behind a path, or without one, is that of the whole. -/
theorem head?_flatMap_pathPattern (text : List Char) :
    (((perhaps pathPattern).rests text).flatMap fun rest =>
      ((perhaps envPattern).rests rest).flatMap namePattern.taken).head? = ofPath? text := by
  rw [rests, rests_pathPattern, List.head?_flatMap]
  unfold ofPath?
  simp only [head?_flatMap_envPattern]

/-- In front of a blank stands no name. -/
theorem ofPath?_blank {c : Char} (blank : isBlank c = true) (text : List Char) :
    ofPath? (c :: text) = none := by
  have no_env : dropLead? ['e', 'n', 'v'] (c :: text) = none := by
    refine if_neg fun same => ?_
    obtain rfl := eq_of_beq same
    exact absurd blank (by decide)
  have no_name : name? (c :: text) = none := by
    rw [← head?_taken_namePattern, taken_namePattern_blank blank]
    rfl
  unfold ofPath? ofCommand?
  rw [afterSlashes, if_pos blank]
  simp [no_env, no_name]

/-- What the pattern captures is the name of what stands behind `#!` and blanks. -/
theorem captured?_eq (text : List Char) :
    captured? leadPattern namePattern text =
      (dropLead? ['#', '!'] text).bind fun rest => ofPath? (rest.dropWhile isBlank) := by
  have behind (text : List Char) :
      (((Pattern.andThen (perhaps pathPattern) (perhaps envPattern)).rests text).flatMap
        namePattern.taken).head? = ofPath? text := by
    rw [rests, List.flatMap_assoc, head?_flatMap_pathPattern]
  have stuck : ∀ c rest, isBlank c = true →
      ((Pattern.andThen (perhaps pathPattern) (perhaps envPattern)).rests (c :: rest)).flatMap
        namePattern.taken = [] :=
    fun c rest blank => List.head?_eq_none_iff.1 ((behind _).trans (ofPath?_blank blank rest))
  unfold captured? leadPattern
  rw [rests, rests]
  cases dropLead? ['#', '!'] text with
  | none => rfl
  | some rest =>
    rw [Option.toList_some, List.flatMap_singleton, rests, List.flatMap_assoc,
      flatMap_rests_many_one stuck, behind, Option.bind_some]

/-- The interpreter of a line is the name that the pattern captures in it without the blanks at its
end, in small letters. -/
theorem ofLine?_eq_captured? (line : String) :
    ofLine? line = (captured? leadPattern namePattern (trimRight line.toList)).map
      fun name => lowerAscii (String.ofList name) := by
  rw [captured?_eq]
  unfold ofLine?
  split
  · next rest led =>
    rw [led]
    rfl
  · next other =>
    cases led : dropLead? ['#', '!'] (trimRight line.toList) with
    | none => rfl
    | some rest => exact absurd (eq_of_dropLead? led) (other rest)

end Interpreter

end CodeDelta
