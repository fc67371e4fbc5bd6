import CodeDelta.Ignore.Glob
import CodeDelta.Files.Workspace

/-!
# Ignore files

Each line of an ignore file is a rule on the paths below the file's directory. A pattern with a
separator before its end is matched from the directory, any other one at every depth; a separator at
its end restricts the rule to directories, and a `!` before it makes the rule keep what it matches.
Of the rules of one file the last that applies decides. Of several files the deepest one decides
that has a rule that applies, those named `.ignore` before those named `.gitignore`.
-/

namespace CodeDelta.Ignore

/-- A line of an ignore file. -/
structure Rule where
  /-- The pattern. -/
  glob : Glob
  /-- Whether matching paths are kept instead of ignored. -/
  keeps : Bool
  /-- Whether only directories match. -/
  onlyDirectories : Bool
deriving DecidableEq, Repr

namespace Rule

/-- The pattern that is matched against whole paths: one that may match at every depth is given any
directories in front, and one that ends in any directories must match something in them. -/
def fullPattern (anchored : Bool) (pattern : List Char) : List Char :=
  let everywhere :=
    !anchored && !pattern.contains '/' && pattern != ['*', '*']
  let pattern := if everywhere then '*' :: '*' :: '/' :: pattern else pattern
  if ['/', '*', '*'].isSuffixOf pattern then pattern ++ ['/', '*'] else pattern

/-- The line without the blanks it ends in, unless a backslash keeps the last of them. -/
def trimLine (line : List Char) : List Char :=
  if ['\\', ' '].isSuffixOf line then line else Text.trimRight line

/-- Whether a separator ends the pattern, and the pattern without it and a backslash before it. -/
def splitDirectoryMark (pattern : List Char) : Bool × List Char :=
  match pattern.reverse with
  | '/' :: '\\' :: rest => (true, rest.reverse)
  | '/' :: rest => (true, rest.reverse)
  | _ => (false, pattern)

/-- The rule of a pattern, its marks read already. -/
def ofPattern? (keeps anchored : Bool) (pattern : List Char) : Option Rule :=
  let (onlyDirectories, pattern) := splitDirectoryMark pattern
  (Glob.parse? (fullPattern anchored pattern)).map fun glob => ⟨glob, keeps, onlyDirectories⟩

/-- The rule of a line; comments, empty lines and patterns that cannot be read have none. -/
def parse? (line : List Char) : Option Rule :=
  if line.head? = some '#' then none
  else
    match trimLine line with
    | [] => none
    | '\\' :: '!' :: rest => ofPattern? false false ('!' :: rest)
    | '\\' :: '#' :: rest => ofPattern? false false ('#' :: rest)
    | '!' :: '/' :: rest => ofPattern? true true rest
    | '!' :: rest => ofPattern? true false rest
    | '/' :: rest => ofPattern? false true rest
    | line => ofPattern? false false line

/-- The lines of a file, up to the first that is not text. -/
def textLines : List (List UInt8) → List (List Char)
  | [] => []
  | line :: rest =>
    match Text.decodeUtf8 line with
    | .ok text => text :: textLines rest
    | .error _ => []

/-- The runs of bytes between line breaks. -/
def splitLines : List UInt8 → List (List UInt8)
  | [] => [[]]
  | byte :: rest =>
    if byte = 10 then [] :: splitLines rest
    else
      match splitLines rest with
      | line :: lines => (byte :: line) :: lines
      | [] => [[byte]]

/-- The rules of a file. A mark of byte order before the first line does not count. -/
def parseFile (content : List UInt8) : List Rule :=
  match textLines (splitLines content) with
  | [] => []
  | first :: rest =>
    (first.dropWhile (· == Char.ofNat 0xFEFF) :: rest).filterMap parse?

/-- Whether a rule applies to a path below its file's directory. -/
def applies (rule : Rule) (path : List UInt8) (isDirectory : Bool) : Bool :=
  (isDirectory || !rule.onlyDirectories) && rule.glob.accepts path

/-- Whether the last rule that applies ignores the path; nothing when none applies. -/
def verdict? (rules : List Rule) (path : List UInt8) (isDirectory : Bool) : Option Bool :=
  (rules.reverse.find? fun rule => rule.applies path isDirectory).map fun rule => !rule.keeps

end Rule

/-- The rules of one directory. -/
structure Level where
  /-- The names that lead to the directory. -/
  base : List String
  /-- The rules of each kind of file, those that decide first in front. -/
  kinds : List (List Rule)
deriving Repr

namespace Level

/-- The ignore files of a directory, those that decide first in front. -/
def fileNames : List String := [".ignore", ".gitignore", ".git/info/exclude"]

/-- Reads the rules of a directory. -/
def read (space : Workspace) (base : List String) : Level where
  base := base
  kinds := fileNames.map fun name =>
    match space.read ("/" ++ "/".intercalate (base ++ [name])) with
    | .ok content => Rule.parseFile content
    | .error _ => []

/-- What the rules of one kind say of a path, given by all its names. -/
def verdict? (level : Level) (kind : Nat) (path : List String) (isDirectory : Bool) :
    Option Bool :=
  let below := "/".intercalate (path.drop level.base.length)
  Rule.verdict? (level.kinds[kind]?.getD []) (Text.encodeUtf8 below.toList) isDirectory

end Level

/-- Whether the rules of a directory and those above it, deepest first, ignore a path. -/
def isIgnored (levels : List Level) (path : List String) (isDirectory : Bool) : Bool :=
  ((List.range Level.fileNames.length).findSome? fun kind =>
    levels.findSome? fun level => level.verdict? kind path isDirectory).getD false

/-- The rules of a directory and of all above it, deepest first. -/
def levelsAbove (space : Workspace) (base : List String) : List Level :=
  ((List.range (base.length + 1)).reverse.map (base.take ·)).map (Level.read space)

end CodeDelta.Ignore
