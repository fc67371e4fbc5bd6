import CodeDelta.Json.Draft

/-!
# Reading typed values from drafts

A decoder walks a draft in the order of the text and answers a typed value or the first fault. It
counts the levels that may still be opened: a document may nest 127 arrays and objects, and one
more is a fault of grammar. A record is written as an object, or as an array of its fields in
order; parts that no field wants are passed over.
-/

namespace CodeDelta.Json

/-- The levels that a text may open. -/
def maxDepth : Nat := 127

/-- Where a document comes from decides the class of two faults. -/
structure Origin where
  /-- The fault of an array with more items than the record has fields. -/
  surplus : Fault
  /-- The fault of a name that is written as something else than a string or an object. -/
  misfit : Fault

/-- Documents read from a text. -/
def Origin.text : Origin := ⟨.grammar, .grammar⟩

/-- Documents that were already read into values. -/
def Origin.value : Origin := ⟨.data, .data⟩

/-- Reads a typed value; the number is that of the levels that may still be opened. -/
abbrev Decoder (α : Type) := Nat → Draft → Except Fault α

/-- The fault of a draft of the wrong kind: a literal is read first, and its own fault comes before
the fault of kind. -/
def mismatch : Draft → Fault
  | .broken fault => fault
  | .number (.error fault) _ => fault
  | .string ⟨.error fault, _⟩ => fault
  | _ => .data

/-- Reads a string. -/
def decodeString : Decoder String := fun _ draft =>
  match draft with
  | .string ⟨.ok text, _⟩ => .ok text
  | other => .error (mismatch other)

/-- Reads a whole number between two bounds. -/
def decodeInt (least greatest : Int) : Decoder Int := fun _ draft =>
  match draft with
  | .number (.ok (.integer value)) _ =>
    if least ≤ value ∧ value ≤ greatest then .ok value else .error .data
  | other => .error (mismatch other)

/-- Reads a natural number below `2 ^ bits`. -/
def decodeNat (bits : Nat) : Decoder Nat := fun room draft =>
  (decodeInt 0 (Int.pow 2 bits - 1) room draft).map Int.toNat

/-- Reads a value or `null`. -/
def decodeOption (decode : Decoder α) : Decoder (Option α) := fun room draft =>
  match draft with
  | .null => .ok none
  | other => (decode room other).map some

/-- Reads items in order, and then the end of their array. -/
def decodeItems (decode : Draft → Except Fault α) (fault : Option Fault) :
    List Draft → Except Fault (List α)
  | [] =>
    match fault with
    | none => .ok []
    | some fault => .error fault
  | item :: rest => do
    let value ← decode item
    let values ← decodeItems decode fault rest
    return value :: values

/-- Reads an array. -/
def decodeList (decode : Decoder α) : Decoder (List α)
  | room + 1, .array items fault => decodeItems (decode room) fault items
  | 0, .array _ _ => .error .grammar
  | _, other => .error (mismatch other)

mutual

/-- Reads any value, its members as they are written. -/
def decodeContent : Nat → Draft → Except Fault Json
  | _, .null => .ok .null
  | _, .bool value => .ok (.bool value)
  | _, .number value _ => value.map .number
  | _, .string text => text.content.map .string
  | _, .broken fault => .error fault
  | 0, .array _ _ | 0, .object _ _ => .error .grammar
  | room + 1, .array items fault => (decodeContents room fault items).map .array
  | room + 1, .object members fault => (decodeNamed room fault members).map .object
termination_by _ draft => sizeOf draft

/-- Reads the items of any array. -/
def decodeContents (room : Nat) (fault : Option Fault) : List Draft → Except Fault (List Json)
  | [] =>
    match fault with
    | none => .ok []
    | some fault => .error fault
  | item :: rest => do
    let value ← decodeContent room item
    let values ← decodeContents room fault rest
    return value :: values
termination_by items => sizeOf items

/-- Reads the members of any object. -/
def decodeNamed (room : Nat) (fault : Option Fault) :
    List (Literal × Draft) → Except Fault (List (String × Json))
  | [] =>
    match fault with
    | none => .ok []
    | some fault => .error fault
  | (name, value) :: rest => do
    let key ← name.content
    let value ← decodeContent room value
    let members ← decodeNamed room fault rest
    return (key, value) :: members
termination_by members => sizeOf members

end

/-- Reads any value into normal form. -/
def decodeJson : Decoder Json := fun room draft => (decodeContent room draft).map normal

/-- One field of a record that is read into `σ`. -/
structure RecordField (σ : Type) where
  /-- The member's name. -/
  name : String
  /-- Whether the record needs the member. -/
  required : Bool
  /-- Reads the member's value into the record. -/
  read : Decoder (σ → σ)

/-- A field from a decoder of its values. -/
def RecordField.of (name : String) (required : Bool) (decode : Decoder α) (set : σ → α → σ) :
    RecordField σ :=
  ⟨name, required, fun room draft => (decode room draft).map fun value record => set record value⟩

/-- Reads the fields of a record from the items of an array. -/
def decodePositions (origin : Origin) (room : Nat) (fault : Option Fault) :
    List (RecordField σ) → List Draft → σ → Except Fault σ
  | [], [], record =>
    match fault with
    | none => .ok record
    | some fault => .error fault
  | [], _ :: _, _ => .error origin.surplus
  | fields, [], record =>
    match fault with
    | some fault => .error fault
    | none => if fields.any RecordField.required then .error .data else .ok record
  | field :: fields, item :: items, record => do
    let update ← field.read room item
    decodePositions origin room fault fields items (update record)

/-- Reads the fields of a record from the members of an object; `seen` holds the names read. -/
def decodeMembers (fields : List (RecordField σ)) (room : Nat) (fault : Option Fault)
    (seen : List String) : List (Literal × Draft) → σ → Except Fault σ
  | [], record =>
    match fault with
    | some fault => .error fault
    | none =>
      if fields.any fun field => field.required && !seen.contains field.name then .error .data
      else .ok record
  | (name, value) :: rest, record => do
    let key ← name.content
    match fields.find? fun field => field.name == key with
    | none =>
      match value.passed with
      | some fault => .error fault
      | none => decodeMembers fields room fault seen rest record
    | some field =>
      if seen.contains key then .error .data
      else
        let update ← field.read room value
        decodeMembers fields room fault (key :: seen) rest (update record)

/-- Reads a record, from the value its missing fields have. -/
def decodeRecord (origin : Origin) (fields : List (RecordField σ)) (missing : σ) : Decoder σ
  | room + 1, .object members fault => decodeMembers fields room fault [] members missing
  | room + 1, .array items fault => decodePositions origin room fault fields items missing
  | 0, .object _ _ | 0, .array _ _ => .error .grammar
  | _, other => .error (mismatch other)

/-- Reads a name out of a closed choice: a string, or an object with the name as its only member
and `null` as its value. -/
def decodeName (origin : Origin) (choose : String → Option α) : Decoder α := fun room draft =>
  let choice (text : String) : Except Fault α :=
    match choose text with
    | some value => .ok value
    | none => .error .data
  match draft with
  | .string text => text.content.bind choice
  | .object members fault =>
    if room = 0 then .error .grammar
    else
      match members with
      | [] => .error (fault.getD origin.misfit)
      | (name, value) :: rest => do
        -- Where no name stands, the fault is that of what stands there instead.
        if name.passed.isSome then throw (mismatch value)
        let chosen ← name.content.bind choice
        match value with
        | .null =>
          match rest, fault with
          | [], none => .ok chosen
          | [], some fault => .error fault
          | _ :: _, _ => .error origin.misfit
        | other => .error (mismatch other)
  | .broken fault => .error fault
  | _ => .error origin.misfit

/-- Reads members whose names are free, adding each to what was read before. -/
def decodeEntries (decode : Decoder α) (add : σ → String → α → σ) (room : Nat)
    (fault : Option Fault) (entries : σ) : List (Literal × Draft) → Except Fault σ
  | [] =>
    match fault with
    | none => .ok entries
    | some fault => .error fault
  | (name, value) :: rest => do
    let key ← name.content
    let value ← decode room value
    decodeEntries decode add room fault (add entries key value) rest

/-- Reads an object whose names are free. -/
def decodeMap (decode : Decoder α) (add : σ → String → α → σ) (empty : σ) : Decoder σ
  | room + 1, .object members fault => decodeEntries decode add room fault empty members
  | 0, .object _ _ => .error .grammar
  | _, other => .error (mismatch other)

/-- Reads a whole text. -/
def decodeText (decode : Decoder α) (text : String) : Except Fault α :=
  match readDocument text.toList with
  | (draft, trailing) =>
    match decode maxDepth draft with
    | .error fault => .error fault
    | .ok value =>
      match trailing with
      | none => .ok value
      | some fault => .error fault

/-- Reads a value; its own depth is no obstacle. -/
def decodeValue (decode : Decoder α) (value : Json) : Except Fault α :=
  let draft := Draft.ofValue value
  decode draft.depth draft

/-- Reads the value a text writes. -/
def parse (text : String) : Except Fault Json := decodeText decodeContent text

end CodeDelta.Json
