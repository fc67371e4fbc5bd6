import CodeDelta.Files.OsPath
import CodeDelta.Proofs.Files.Components
import CodeDelta.Proofs.Text.Lossy
import CodeDelta.Proofs.Text.Octets
import Mathlib.Data.List.Basic

/-!
# Paths of texts

A path that a text spells is made of the components of the text, each in octets, since slashes and
dots are octets of their own (`components_octetName`). So the path below a root and the extension
are those that are read of the text itself (`Path.relative_eq`, `extensionText?_ofText`).
-/

namespace CodeDelta.OsPath

/-- The octets of a text, each read as a character. -/
def octetName (name : String) : String := String.ofList (Text.asOctets name.toList)

/-- The octets of the path that a text spells are those of the text. -/
theorem octetText_ofText (path : String) : octetText (ofText path) = octetName path := rfl

/-- The component in octets. -/
def inOctets : Component → Component
  | .named name => .named (octetName name)
  | part => part

/-- Different texts have different octets. -/
theorem octetName_injective {name other : String} (same : octetName name = octetName other) :
    name = other :=
  String.toList_inj.1 (Text.asOctets_injective (String.ofList_injective same))

/-- Different components are different in octets. -/
theorem inOctets_injective {part other : Component} (same : inOctets part = inOctets other) :
    part = other := by
  cases part with
  | named name =>
    cases other with
    | named other => rw [octetName_injective (Component.named.inj same)]
    | _ => cases same
  | _ =>
    cases other with
    | named other => cases same
    | _ => first | rfl | cases same

/-! ## Components -/

/-- Octets are cut at slashes where the text is. -/
theorem pieces_octetName (path : String) :
    Path.pieces (octetName path) = (Path.pieces path).map Text.asOctets := by
  unfold Path.pieces octetName
  rw [String.toList_ofList]
  exact Text.splitOnChar_asOctets (by decide) path.toList

/-- Only a piece that is its own octets can have the octets of that piece. -/
theorem asOctets_eq_iff {piece other : List Char} (own : Text.asOctets other = other) :
    Text.asOctets piece = other ↔ piece = other :=
  ⟨fun h => Text.asOctets_injective (h.trans own.symm), fun h => h ▸ own⟩

/-- The octets of a piece stand for the component of the piece. -/
theorem ofPiece?_asOctets (piece : List Char) :
    Component.ofPiece? (Text.asOctets piece) = (Component.ofPiece? piece).map inOctets := by
  have dot : Text.asOctets ['.'] = ['.'] := by decide
  have dots : Text.asOctets ['.', '.'] = ['.', '.'] := by decide
  unfold Component.ofPiece?
  simp only [Text.asOctets_eq_nil_iff, asOctets_eq_iff dot, asOctets_eq_iff dots]
  split_ifs
  · rfl
  · rfl
  · rw [Option.map_some, inOctets, octetName, String.toList_ofList]

/-- Octets make the components of the text. -/
theorem components_octetName (path : String) :
    Path.components (octetName path) = (Path.components path).map inOctets := by
  have slash : Text.IsAscii '/' := by decide
  have absolute : Path.isAbsolute (octetName path) = Path.isAbsolute path := by
    have first : ∀ text : List Char, text.head? = some '/' ↔ ['/'] <+: text := by
      intro text
      cases text <;> simp [eq_comm]
    unfold Path.isAbsolute octetName
    rw [String.toList_ofList, Bool.eq_iff_iff, beq_iff_eq, beq_iff_eq, first, first]
    exact Text.isPrefix_asOctets_iff (List.forall_mem_singleton.2 slash)
  have dot : ((Path.pieces path).map Text.asOctets).head? = some ['.'] ↔
      (Path.pieces path).head? = some ['.'] := by
    rw [List.head?_map]
    cases (Path.pieces path).head? with
    | none => exact Iff.rfl
    | some piece =>
      rw [Option.map_some, Option.some_inj, Option.some_inj, asOctets_eq_iff (by decide)]
  rw [Path.components_eq, Path.components_eq, List.map_append]
  unfold Path.start Path.plain
  rw [absolute, pieces_octetName, List.filterMap_map, List.map_filterMap]
  refine congrArg₂ _ ?_ (List.filterMap_congr fun piece _ => ofPiece?_asOctets piece)
  simp only [dot]
  split_ifs <;> rfl

/-! ## Tags -/

/-- What stands behind a root does so in octets. -/
theorem below?_map_inOctets (parts root : List Component) :
    Path.below? (parts.map inOctets) (root.map inOctets) =
      (Path.below? parts root).map (List.map inOctets) := by
  induction root generalizing parts with
  | nil => cases parts <;> rfl
  | cons lead root ih =>
    cases parts with
    | nil => rfl
    | cons part parts =>
      have same : inOctets part = inOctets lead ↔ part = lead :=
        ⟨inOctets_injective, congrArg inOctets⟩
      simp only [List.map_cons, Path.below?, same]
      split_ifs
      · exact ih parts
      · rfl

/-- The names below a root are those of the texts, in octets. -/
theorem namesBelow_map_inOctets (parts root : List Component) :
    Path.namesBelow (parts.map inOctets) (root.map inOctets) =
      (Path.namesBelow parts root).map octetName := by
  have named : Component.name? ∘ inOctets = fun part => part.name?.map octetName := by
    funext part
    cases part <;> rfl
  unfold Path.namesBelow
  rw [below?_map_inOctets]
  cases Path.below? parts root <;>
    simp only [Option.map_none, Option.map_some, Option.getD_none, Option.getD_some,
      List.filterMap_map, named, List.map_filterMap]

/-- Text is shown as it is. -/
theorem shown_ofText (name : String) : shown (ofText name) = name := by
  unfold shown ofText
  rw [Text.decodeLossy_encodeUtf8, String.ofList_toList]

/-- The bytes of a text are read back from its octets. -/
theorem ofOctetText_octetName (name : String) : ofOctetText (octetName name) = ofText name := by
  unfold ofOctetText octetName
  rw [String.toList_ofList]
  exact Text.ofOctets_octets (Text.encodeUtf8 name.toList)

/-! ## Extensions -/

/-- The extension of a name in octets is the extension in octets. -/
theorem nameExtension?_octetName (name : String) :
    Path.nameExtension? (octetName name) = (Path.nameExtension? name).map octetName := by
  unfold Path.nameExtension? octetName
  rw [String.toList_ofList, Text.splitLast?_asOctets (by decide)]
  cases Text.splitLast? '.' name.toList with
  | none => rfl
  | some parts =>
    have filled : (Text.asOctets parts.1).isEmpty = parts.1.isEmpty := by
      rw [Bool.eq_iff_iff, List.isEmpty_iff, List.isEmpty_iff, Text.asOctets_eq_nil_iff]
    simp only [Option.map_some, Text.octetParts, filled]
    split_ifs
    · rfl
    · rw [Option.map_some, String.toList_ofList]

/-- The extension of a path in octets is the extension in octets. -/
theorem extension?_octetName (path : String) :
    Path.extension? (octetName path) = (Path.extension? path).map octetName := by
  have last : Path.fileName? (octetName path) = (Path.fileName? path).map octetName := by
    unfold Path.fileName?
    rw [components_octetName, List.getLast?_map]
    cases (Path.components path).getLast? with
    | none => rfl
    | some part => cases part <;> rfl
  unfold Path.extension?
  rw [last]
  cases Path.fileName? path with
  | none => rfl
  | some name =>
    rw [Option.map_some, Option.bind_some, Option.bind_some]
    exact nameExtension?_octetName name

/-- An extension whose bytes spell a text is that text. -/
theorem extensionText?_of_extension? {path : OsPath} {extension : String}
    (h : extension? path = some (ofText extension)) : extensionText? path = some extension := by
  unfold extensionText?
  rw [h, Option.bind_some]
  unfold ofText
  rw [Text.decodeUtf8_encodeUtf8]
  exact congrArg some String.ofList_toList

/-- The extension of a path that a text spells is that of the text. -/
theorem extension?_ofText (path : String) :
    extension? (ofText path) = (Path.extension? path).map ofText := by
  have back : ofOctetText ∘ octetName = ofText := by
    funext name
    rw [Function.comp_apply, ofOctetText_octetName]
  unfold extension?
  rw [octetText_ofText, extension?_octetName, Option.map_map, back]

/-- So it is read as that of the text. -/
theorem extensionText?_ofText (path : String) :
    extensionText? (ofText path) = Path.extension? path := by
  have same := extension?_ofText path
  cases read : Path.extension? path with
  | none =>
    rw [read, Option.map_none] at same
    unfold extensionText?
    rw [same, Option.bind_none]
  | some extension =>
    rw [read, Option.map_some] at same
    exact extensionText?_of_extension? same

end CodeDelta.OsPath

namespace CodeDelta.Path

/-- The path below a root is made of the names that stand there. -/
theorem relative_eq (path root : String) :
    relative path root = "/".intercalate (namesBelow (components path) (components root)) := by
  have back : (fun name => OsPath.shown (OsPath.ofOctetText name)) ∘ OsPath.octetName = id := by
    funext name
    exact (congrArg OsPath.shown (OsPath.ofOctetText_octetName name)).trans
      (OsPath.shown_ofText name)
  unfold relative OsPath.relative
  rw [OsPath.octetText_ofText, OsPath.octetText_ofText, OsPath.components_octetName,
    OsPath.components_octetName, OsPath.namesBelow_map_inOctets]
  dsimp only
  rw [List.map_map, back, List.map_id]

end CodeDelta.Path
