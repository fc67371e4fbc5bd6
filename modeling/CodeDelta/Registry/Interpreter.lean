import CodeDelta.Text.Utf8
import CodeDelta.Text.Blank

/-!
# Interpreters

A script's first line may name its interpreter: after `#!` stands a command, whose path is dropped,
or `env` with options and a command. The name is the run of letters and underscores that the command
starts with. The longest path is dropped that leaves such a run, and `env` itself is the name when
no other follows: these are the matches of the pattern
`^#!\s*(?:\S*/)?(?:env\s+(?:-\S+\s+)*)?([A-Za-z_]+)`, in the order in which they are tried
(`ofLine?_eq_captured?`).
-/

namespace CodeDelta.Interpreter

/-- Letters A to Z of either case, and the underscore. -/
def isNameChar (c : Char) : Bool := c.isAlpha || c == '_'

/-- The run of name characters that a text starts with. -/
def name? (text : List Char) : Option (List Char) :=
  match text.takeWhile isNameChar with
  | [] => none
  | name => some name

/-- A text after the blanks it starts with; it has to start with one. -/
def afterBlanks? : List Char → Option (List Char)
  | [] => none
  | c :: rest => if Text.isBlank c then some (rest.dropWhile Text.isBlank) else none

/-- A text after the option it starts with, a dash and at least one more character, and the blanks
behind it. -/
def afterOption? : List Char → Option (List Char)
  | '-' :: c :: rest =>
    if Text.isBlank c then none
    else afterBlanks? (rest.dropWhile fun c => !Text.isBlank c)
  | _ => none

theorem length_dropWhile_le (p : α → Bool) (xs : List α) :
    (xs.dropWhile p).length ≤ xs.length := by
  induction xs with
  | nil => simp
  | cons x xs ih =>
    rw [List.dropWhile_cons]
    split
    · exact Nat.le_succ_of_le ih
    · exact Nat.le_refl _

theorem afterBlanks?_length {text rest : List Char} (h : afterBlanks? text = some rest) :
    rest.length < text.length := by
  unfold afterBlanks? at h
  split at h
  · simp at h
  · split at h
    · cases h
      exact Nat.lt_succ_of_le (length_dropWhile_le _ _)
    · simp at h

theorem afterOption?_length {text rest : List Char} (h : afterOption? text = some rest) :
    rest.length < text.length := by
  unfold afterOption? at h
  split at h
  · split at h
    · simp at h
    · have h₁ := afterBlanks?_length h
      have h₂ := length_dropWhile_le (fun c => !Text.isBlank c) ‹List Char›
      simp only [List.length_cons]
      omega
  · simp at h

/-- A text after all options it starts with. -/
def afterOptions (text : List Char) : List Char :=
  match _h : afterOption? text with
  | some rest => afterOptions rest
  | none => text
termination_by text.length
decreasing_by exact afterOption?_length ‹_›

/-- The name in a command that has no path. -/
def ofCommand? (text : List Char) : Option (List Char) :=
  let behindEnv :=
    (Text.dropLead? ['e', 'n', 'v'] text).bind fun rest =>
      (afterBlanks? rest).bind fun rest => name? (afterOptions rest)
  behindEnv.or (name? text)

/-- What follows each `/` of the run of other characters than blanks that a text starts with, the
longest first. -/
def afterSlashes : List Char → List (List Char)
  | [] => []
  | c :: rest =>
    if Text.isBlank c then [] else if c == '/' then rest :: afterSlashes rest else afterSlashes rest

/-- The name in a command. -/
def ofPath? (text : List Char) : Option (List Char) :=
  ((afterSlashes text).reverse ++ [text]).findSome? ofCommand?

/-- The interpreter that a script's first line names, in small letters. -/
def ofLine? (line : String) : Option String :=
  match Text.trimRight line.toList with
  | '#' :: '!' :: rest =>
    (ofPath? (rest.dropWhile Text.isBlank)).map fun name =>
      Text.lowerAscii (String.ofList name)
  | _ => none

/-- The first line of some bytes. -/
def firstLine (content : List UInt8) : List UInt8 := content.takeWhile fun byte => byte != 10

/-- The interpreter that a script names; none when its first line is not text. -/
def ofContent? (content : List UInt8) : Option String :=
  match Text.decodeUtf8 (firstLine content) with
  | .ok line => ofLine? (String.ofList line)
  | .error _ => none

end CodeDelta.Interpreter
