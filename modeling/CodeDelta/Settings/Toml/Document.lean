import CodeDelta.Settings.Toml.Lexeme

/-!
# TOML documents

A document is a list of statements: headers of tables and of elements of arrays of tables, and pairs
of a key and a value. Putting the statements together fails where one defines again what stands
already: a table may be headed once, and only tables that no header named may be extended by dotted
keys.
-/

namespace CodeDelta.Toml

/-- A value. Nothing asks which number or which time it is. -/
inductive Value where
  | string (text : String)
  | boolean (value : Bool)
  | number
  | time
  | array (items : List Value)
  | table (entries : List (String × Value))
deriving Repr, Inhabited

/-- What a table's key holds while the document is put together. -/
inductive Item where
  /-- A value, to which nothing can be added. -/
  | value (value : Value)
  /-- A table: whether it was only mentioned on the way to another one, and whether a dotted key
  mentioned it. -/
  | table (implicit dotted : Bool) (entries : List (String × Item))
  /-- The tables of an array, the last one first. -/
  | tables (all : List (List (String × Item)))
deriving Repr, Inhabited

/-- The entries of a table in progress. -/
abbrev Entries := List (String × Item)

/-- Sets the entry of a key; a new key comes last. -/
def setEntry (key : String) (item : Item) : Entries → Entries
  | [] => [(key, item)]
  | (name, old) :: rest =>
    if name = key then (key, item) :: rest else (name, old) :: setEntry key item rest

/-- A table with its flags: implicit, dotted. -/
structure OpenTable where
  /-- Whether no header named the table. -/
  implicit : Bool
  /-- Whether a dotted key mentioned the table. -/
  dotted : Bool
  /-- The entries. -/
  entries : Entries

/-- Changes the table that a path leads to. Tables on the way that are missing are made; of an array
of tables the last one counts. A dotted path leads through no table that a header named. -/
def within (dotted : Bool) (change : OpenTable → Option Entries) :
    List String → OpenTable → Option Entries
  | [], table => change table
  | name :: path, table =>
    match (table.entries.lookup name).getD (.table true dotted []) with
    | .value _ => none
    | .table implicit wasDotted entries =>
      -- A dotted key reaches into no table that a header named.
      if dotted ∧ !implicit then none
      else
        (within dotted change path ⟨implicit, wasDotted, entries⟩).map fun entries =>
          setEntry name (.table implicit wasDotted entries) table.entries
    | .tables (last :: others) =>
      (within dotted change path ⟨false, false, last⟩).map fun last =>
        setEntry name (.tables (last :: others)) table.entries
    | .tables [] => none

/-- Adds a value under a new key of a table that a path of dotted keys leads to. -/
def addPair (path : List String) (name : String) (value : Value) (table : OpenTable) :
    Option Entries :=
  within true (fun table =>
    -- Tables of dotted keys are extended by dotted keys only, all others by plain keys only.
    if table.dotted = path.isEmpty then none
    else if (table.entries.lookup name).isSome then none
    else some (setEntry name (.value value) table.entries)) path table

/-- Heads a table. -/
def headTable (name : String) (table : OpenTable) : Option Entries :=
  match table.entries.lookup name with
  | none => some (setEntry name (.table false false []) table.entries)
  | some (.table true false entries) =>
    some (setEntry name (.table false false entries) table.entries)
  | some _ => none

/-- Heads another table of an array. -/
def headElement (name : String) (table : OpenTable) : Option Entries :=
  match table.entries.lookup name with
  | none => some (setEntry name (.tables [[]]) table.entries)
  | some (.tables all) => some (setEntry name (.tables ([] :: all)) table.entries)
  | some _ => none

mutual

/-- The value of an item. -/
def Item.finish : Item → Value
  | .value value => value
  | .table _ _ entries => .table (finishEntries entries)
  | .tables all => .array (finishTables all).reverse

/-- The values of entries. -/
def finishEntries : List (String × Item) → List (String × Value)
  | [] => []
  | (name, item) :: rest => (name, item.finish) :: finishEntries rest

/-- The values of tables. -/
def finishTables : List (List (String × Item)) → List Value
  | [] => []
  | entries :: rest => .table (finishEntries entries) :: finishTables rest

end

/-- The table of the pairs between braces. -/
def inlineTable (pairs : List (List String × Value)) : Option Value :=
  let add (entries : Entries) (pair : List String × Value) : Option Entries :=
    match pair.1.reverse with
    | [] => none
    | name :: path => addPair path.reverse name pair.2 ⟨true, false, entries⟩
  (pairs.foldlM add []).map fun entries => .table (finishEntries entries)

mutual

/-- Reads a value nested at most `depth` levels; every round takes at least one character. -/
def readValue (depth : Nat) : (rounds : Nat) → Reader Value
  | 0, _ => none
  | rounds + 1, text =>
    match text with
    | '[' :: rest =>
      match depth with
      | 0 => none
      | depth + 1 => (readItems depth rounds rest).map fun read => (.array read.1, read.2)
    | '\x7b' :: rest =>
      match depth with
      | 0 => none
      | depth + 1 => do
        let (pairs, rest) ← readPairs depth rounds rest
        return (← inlineTable pairs, rest)
    | 't' :: _ => (after? "true".toList text).map fun rest => (.boolean true, rest)
    | 'f' :: _ => (after? "false".toList text).map fun rest => (.boolean false, rest)
    | _ =>
      ((readString text).map fun read => (.string read.1, read.2)).or
        (((readDateTime text).map fun read => (.time, read.2)).or
          (((readFloat text).or (readInteger text)).map fun read => (.number, read.2)))

/-- Reads the items of an array behind its bracket; a comma may follow the last one. -/
def readItems (depth : Nat) : (rounds : Nat) → Reader (List Value)
  | 0, _ => none
  | rounds + 1, text =>
    match skipFiller false text with
    | ']' :: rest => some ([], rest)
    | text => do
      let (item, rest) ← readValue depth rounds text
      match skipFiller false rest with
      | ',' :: rest => do
        let (items, rest) ← readItems depth rounds rest
        return (item :: items, rest)
      | ']' :: rest => return ([item], rest)
      | _ => none

/-- Reads the pairs of an inline table behind its brace. -/
def readPairs (depth : Nat) : (rounds : Nat) → Reader (List (List String × Value))
  | 0, _ => none
  | rounds + 1, text =>
    match skipBlanks text with
    | '\x7d' :: rest => some ([], rest)
    | text => readMorePairs depth rounds text

/-- Reads at least one pair of an inline table. -/
def readMorePairs (depth : Nat) : (rounds : Nat) → Reader (List (List String × Value))
  | 0, _ => none
  | rounds + 1, text => do
    let (key, rest) ← readKey text
    let (value, rest) ← readValue depth rounds (skipBlanks (← after? ['='] rest))
    match skipBlanks rest with
    | ',' :: rest => do
      let (pairs, rest) ← readMorePairs depth rounds rest
      return ((key, value) :: pairs, rest)
    | '\x7d' :: rest => return ([(key, value)], rest)
    | _ => none

end

/-- A line of a document, or several lines that belong together. -/
inductive Statement where
  /-- A key and its value. -/
  | pair (key : List String) (value : Value)
  /-- The header of a table. -/
  | table (key : List String)
  /-- The header of an element of an array of tables. -/
  | element (key : List String)
deriving Repr

/-- Reads a statement and the end of its line. -/
def readStatement (text : List Char) : Option (Statement × List Char) :=
  match text with
  | '[' :: '[' :: rest => do
    let (key, rest) ← readKey rest
    return (.element key, ← afterLine? (← after? [']', ']'] rest))
  | '[' :: rest => do
    let (key, rest) ← readKey rest
    return (.table key, ← afterLine? (← after? [']'] rest))
  | _ => do
    let (key, rest) ← readKey text
    let text := skipBlanks (← after? ['='] rest)
    let (value, rest) ← readValue (maxDepth - 1) (2 * text.length + 2) text
    return (.pair key value, ← afterLine? rest)

/-- Reads all statements; every round takes at least one character. -/
def readStatements : (rounds : Nat) → List Char → Option (List Statement)
  | 0, _ => none
  | rounds + 1, text =>
    match skipFiller false text with
    | [] => some []
    | text => do
      let (statement, rest) ← readStatement text
      return statement :: (← readStatements rounds rest)

/-- Puts a statement into the root table; `header` is the path of the table that pairs belong to. -/
def place (state : List String × Entries) (statement : Statement) :
    Option (List String × Entries) := do
  let (header, root) := state
  let table : OpenTable := ⟨false, false, root⟩
  match statement with
  | .pair key value =>
    let name ← key.getLast?
    return (header, ← within false (addPair key.dropLast name value) header table)
  | .table key =>
    let name ← key.getLast?
    return (key, ← within false (headTable name) key.dropLast table)
  | .element key =>
    let name ← key.getLast?
    return (key, ← within false (headElement name) key.dropLast table)

/-- Reads a document; a mark of byte order may stand before it. -/
def parse? (text : String) : Option (List (String × Value)) := do
  let chars :=
    match text.toList with
    | c :: rest => if c = Char.ofNat 0xFEFF then rest else c :: rest
    | [] => []
  let statements ← readStatements (chars.length + 1) chars
  let (_, root) ← statements.foldlM place ([], [])
  return finishEntries root

end CodeDelta.Toml
