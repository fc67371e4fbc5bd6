import CodeDelta.Text.Utf8
import CodeDelta.Text.Blank

/-!
# Patterns of paths

A pattern is matched against the bytes of a whole path: `?` stands for one byte and `*` for any
bytes but the separator, a class in brackets for one byte of some ranges, `**` between separators
for any number of directories, and braces for any of some patterns. A backslash takes away the
meaning of the character behind it.

A pattern with braces is read into all the patterns without braces that it stands for. Each of
these is a list of parts, and a part is described by what it leaves of a text.
-/

namespace CodeDelta.Ignore

/-- The part of a pattern. -/
inductive Part where
  /-- One byte. -/
  | literal (byte : UInt8)
  /-- One byte that is no separator. -/
  | any
  /-- Bytes that are no separators. -/
  | star
  /-- One byte inside some ranges, or outside of them. -/
  | range (negated : Bool) (ranges : List (UInt8 × UInt8))
  /-- Any directories at the start of a path. -/
  | leadingDirectories
  /-- A separator, any directories. -/
  | innerDirectories
  /-- A separator and all that follows. -/
  | allBelow
deriving DecidableEq, Repr

namespace Part

/-- The separator of paths. -/
def separator : UInt8 := 47

/-- What stands behind each separator of a text. -/
def behindSeparators : List UInt8 → List (List UInt8)
  | [] => []
  | byte :: rest =>
    if byte = separator then rest :: behindSeparators rest else behindSeparators rest

/-- The ends of a text. -/
def ends : List UInt8 → List (List UInt8)
  | [] => [[]]
  | byte :: rest => (byte :: rest) :: ends rest

/-- The ends of a text up to which no separator stands. -/
def endsInName : List UInt8 → List (List UInt8)
  | [] => [[]]
  | byte :: rest =>
    if byte = separator then [byte :: rest] else (byte :: rest) :: endsInName rest

/-- What a part may leave of a text that starts with it. -/
def remainders : Part → List UInt8 → List (List UInt8)
  | literal byte, first :: rest => if first = byte then [rest] else []
  | any, first :: rest => if first = separator then [] else [rest]
  | star, text => endsInName text
  | range negated ranges, first :: rest =>
    if (ranges.any fun range => range.1 ≤ first && first ≤ range.2) != negated then [rest] else []
  | leadingDirectories, text => text :: behindSeparators text
  | innerDirectories, first :: rest =>
    if first = separator then rest :: behindSeparators rest else []
  | allBelow, first :: rest => if first = separator then ends rest else []
  | _, [] => []

end Part

/-- Whether a text consists of some parts. -/
def matchParts : List Part → List UInt8 → Bool
  | [], text => text.isEmpty
  | part :: parts, text => (part.remainders text).any (matchParts parts)

/-- Patterns without braces, any of which may match. -/
abbrev Glob := List (List Part)

/-- Whether a path matches. A pattern that is nothing but `**` matches every path. -/
def Glob.accepts (glob : Glob) (path : List UInt8) : Bool :=
  glob == [[.leadingDirectories]] || glob.any fun parts => matchParts parts path

/-- What is under way while a pattern is read: the parts of the branch in progress, last one first,
and for each open brace the branches before it and the parts before the brace. -/
structure Reading where
  /-- The patterns that the branch in progress stands for, each last part first. -/
  current : Glob
  /-- For every open brace, the finished branches and what stands before the brace. -/
  pending : List (Glob × Glob)

namespace Reading

/-- Adds a part. -/
def push (reading : Reading) (part : Part) : Reading :=
  { reading with current := reading.current.map (part :: ·) }

/-- Adds the bytes of a character. -/
def pushChar (reading : Reading) (c : Char) : Reading :=
  (Text.encodeChar c).foldl (fun reading byte => reading.push (.literal byte)) reading

/-- Whether the branch in progress has no part yet. -/
def isFresh (reading : Reading) : Bool := reading.current.all List.isEmpty

/-- Opens a brace. -/
def openBrace (reading : Reading) : Reading :=
  ⟨[[]], ([], reading.current) :: reading.pending⟩

/-- Ends a branch and starts the next one. -/
def nextBranch (reading : Reading) : Reading :=
  match reading.pending with
  | (branches, before) :: pending =>
    ⟨[[]], (branches ++ reading.current, before) :: pending⟩
  | [] => reading

/-- Closes a brace; branches without parts do not count. -/
def closeBrace? (reading : Reading) : Option Reading :=
  match reading.pending with
  | (branches, before) :: pending =>
    let branches := (branches ++ reading.current).filter fun branch => !branch.isEmpty
    let branches := if branches.isEmpty then [[]] else branches
    some ⟨before.flatMap fun start => branches.map (· ++ start), pending⟩
  | [] => none

/-- Replaces the separator or the directories that every pattern in progress ends in by any
directories, and whatever follows them when nothing else does. -/
def pushDirectories (reading : Reading) (isLast : Bool) : Reading :=
  { reading with
    current := reading.current.map fun
      | .leadingDirectories :: rest => .leadingDirectories :: rest
      | .allBelow :: rest => .allBelow :: rest
      | _ :: rest => (if isLast then .allBelow else .innerDirectories) :: rest
      | [] => [] }

end Reading

/-- The ranges of bytes that a range of characters stands for; of a character of several bytes all
but the bounds' facing bytes stand for themselves. -/
def byteRanges (least greatest : Char) : List (UInt8 × UInt8) :=
  let single (byte : UInt8) := (byte, byte)
  if least = greatest then (Text.encodeChar least).map single
  else
    match (Text.encodeChar least).reverse, Text.encodeChar greatest with
    | last :: front, first :: back => front.map single ++ (last, first) :: back.map single
    | _, _ => []

/-- Reads a class behind its bracket: the ranges and the rest. `waiting` tells that a dash stands
between the last character and the next one; a dash at either end stands for itself. -/
def readClass (ranges : List (Char × Char)) (isFirst waiting : Bool) :
    List Char → Option (List (Char × Char) × List Char)
  | [] => none
  | c :: rest =>
    -- A bracket in front stands for itself.
    if c = ']' ∧ !isFirst then
      some ((if waiting then ('-', '-') :: ranges else ranges), rest)
    else if c = '-' ∧ !isFirst ∧ !waiting then readClass ranges false true rest
    else if waiting then
      match ranges with
      | (least, _) :: others =>
        if c < least then none else readClass ((least, c) :: others) false false rest
      | [] => none
    else readClass ((c, c) :: ranges) false false rest

theorem readClass_length {ranges : List (Char × Char)} {isFirst waiting : Bool}
    {text : List Char} {result : List (Char × Char)} {rest : List Char}
    (h : readClass ranges isFirst waiting text = some (result, rest)) :
    rest.length < text.length := by
  induction text generalizing ranges isFirst waiting with
  | nil => simp [readClass] at h
  | cons c text ih =>
    unfold readClass at h
    split at h
    · cases h
      simp
    · split at h
      · exact Nat.lt_succ_of_lt (ih h)
      · split at h
        · split at h
          · split at h
            · simp at h
            · exact Nat.lt_succ_of_lt (ih h)
          · simp at h
        · exact Nat.lt_succ_of_lt (ih h)

/-- Reads a class behind its opening bracket: the part and the rest. -/
def readBracket (text : List Char) : Option (Part × List Char) :=
  let negated := text.head? = some '!' ∨ text.head? = some '^'
  (readClass [] true false (if negated then text.tail else text)).map fun result =>
    (.range negated (result.1.flatMap fun range => byteRanges range.1 range.2), result.2)

theorem readBracket_length {text : List Char} {part : Part} {rest : List Char}
    (h : readBracket text = some (part, rest)) : rest.length < text.length := by
  obtain ⟨⟨ranges, after⟩, hr, he⟩ := Option.map_eq_some_iff.1 h
  cases he
  have hlt := readClass_length hr
  have hle : text.tail.length ≤ text.length := by simp
  split at hlt
  · exact Nat.lt_of_lt_of_le hlt hle
  · exact hlt

/-- Reads a pattern; `previous` is the character before the rest. -/
def readGlob (reading : Reading) (previous : Option Char) (text : List Char) : Option Reading :=
  match text with
  | [] => some reading
  | '?' :: rest => readGlob (reading.push .any) (some '?') rest
  | '[' :: rest =>
    match h : readBracket rest with
    | none => none
    | some (part, after) =>
      have := readBracket_length h
      readGlob (reading.push part) (some ']') after
  | '{' :: rest => readGlob reading.openBrace (some '\x7b') rest
  | '}' :: rest =>
    match reading.closeBrace? with
    | some reading => readGlob reading (some '\x7d') rest
    | none => none
  | ',' :: rest =>
    if reading.pending.isEmpty then readGlob (reading.pushChar ',') (some ',') rest
    else readGlob reading.nextBranch (some ',') rest
  | ['\\'] => none
  | '\\' :: c :: rest => readGlob (reading.pushChar c) (some c) rest
  | '*' :: '*' :: rest =>
    let stars := (reading.push .star).push .star
    -- Two stars stand for directories only between separators, the ends of a pattern counting as
    -- such, and in braces also the ends of a branch.
    let inBraces := !reading.pending.isEmpty
    let startsBranch := inBraces ∧ (previous = some ',' ∨ previous = some '\x7b')
    if reading.isFresh then
      match rest with
      | [] => some (reading.push .leadingDirectories)
      | '/' :: rest => readGlob (reading.push .leadingDirectories) (some '/') rest
      | rest => readGlob stars (some '*') rest
    else if previous = some '/' ∨ startsBranch then
      match rest with
      | [] => some (reading.pushDirectories true)
      | '/' :: rest => readGlob (reading.pushDirectories false) (some '/') rest
      | c :: rest =>
        if inBraces ∧ (c = ',' ∨ c = '\x7d') then
          readGlob (reading.pushDirectories true) (some '*') (c :: rest)
        else readGlob stars (some '*') (c :: rest)
    else readGlob stars (some '*') rest
  | '*' :: rest => readGlob (reading.push .star) (some '*') rest
  | c :: rest => readGlob (reading.pushChar c) (some c) rest
termination_by text.length
decreasing_by all_goals simp only [List.length_cons]; omega

/-- The patterns without braces that a pattern stands for; nothing when a bracket or brace is left
open, a brace is closed that was not opened, a range is empty or a backslash stands last. -/
def Glob.parse? (pattern : List Char) : Option Glob :=
  match readGlob ⟨[[]], []⟩ none pattern with
  | some ⟨current, []⟩ => some (current.map List.reverse)
  | _ => none

end CodeDelta.Ignore
