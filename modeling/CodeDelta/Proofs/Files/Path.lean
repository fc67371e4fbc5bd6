import CodeDelta.Files.Path
import CodeDelta.Proofs.Text.Joined
import Mathlib.Tactic.ByContra
import Mathlib.Tactic.SplitIfs

/-!
# Names and paths

A path put together from names is cut into these names again, so distinct lists of names make
distinct paths (`join_injective`), and what the path leads to is named by the last one, whatever
stands before it (`fileName?_append_join`). The extension of a path is a part of that name: it holds
no dot and no slash (`not_mem_extension`).
-/

namespace CodeDelta.Path

/-- Whether a text can name a component of a path. -/
def IsPart (name : String) : Prop := name ≠ "" ∧ name ≠ "." ∧ name ≠ ".." ∧ '/' ∉ name.toList

instance (name : String) : Decidable (IsPart name) :=
  inferInstanceAs (Decidable (name ≠ "" ∧ name ≠ "." ∧ name ≠ ".." ∧ '/' ∉ name.toList))

/-- Whether an entry of a directory can have a name. -/
def IsName (name : String) : Prop :=
  name ≠ "" ∧ name ≠ "." ∧ name ≠ ".." ∧ '/' ∉ name.toList ∧ Char.ofNat 0 ∉ name.toList

instance (name : String) : Decidable (IsName name) :=
  inferInstanceAs (Decidable
    (name ≠ "" ∧ name ≠ "." ∧ name ≠ ".." ∧ '/' ∉ name.toList ∧ Char.ofNat 0 ∉ name.toList))

/-- What names an entry names a component. -/
theorem IsName.isPart {name : String} (h : IsName name) : IsPart name :=
  ⟨h.1, h.2.1, h.2.2.1, h.2.2.2.1⟩

/-- Names of entries name components. -/
theorem isPart_of_isName {names : List String} (h : ∀ name ∈ names, IsName name) :
    ∀ name ∈ names, IsPart name :=
  fun name inside => (h name inside).isPart

/-- The path along some names. -/
def join (names : List String) : String := "/".intercalate names

/-- A piece is a name, unless it is empty or made of one or two dots. -/
theorem ofPiece?_of_ne {piece : List Char} (nonempty : piece ≠ []) (notHere : piece ≠ ['.'])
    (notUp : piece ≠ ['.', '.']) :
    Component.ofPiece? piece = some (.named (String.ofList piece)) := by
  have h : ¬(piece = [] ∨ piece = ['.']) := not_or.2 ⟨nonempty, notHere⟩
  unfold Component.ofPiece?
  rw [if_neg h, if_neg notUp]

/-- The characters of a name are no piece with a meaning of its own. -/
theorem IsPart.toList_ne {name : String} (h : IsPart name) :
    name.toList ≠ [] ∧ name.toList ≠ ['.'] ∧ name.toList ≠ ['.', '.'] := by
  obtain ⟨nonempty, notHere, notUp, -⟩ := h
  have differ : ∀ other : String, name ≠ other → name.toList ≠ other.toList :=
    fun other different same => different (String.toList_inj.1 same)
  exact ⟨differ "" nonempty, differ "." notHere, differ ".." notUp⟩

/-- A name is read as itself. -/
theorem ofPiece?_part {name : String} (h : IsPart name) :
    Component.ofPiece? name.toList = some (.named name) := by
  obtain ⟨nonempty, notHere, notUp⟩ := h.toList_ne
  rw [ofPiece?_of_ne nonempty notHere notUp, String.ofList_toList]

/-- A text without slashes is one piece. -/
theorem pieces_of_not_mem {text : String} (h : '/' ∉ text.toList) : pieces text = [text.toList] :=
  (Text.splitOnChar_eq_splitOn '/' text.toList).trans (List.splitOn_eq_singleton h)

/-- A path along names has these names as its pieces. -/
theorem pieces_join {names : List String} (h : ∀ name ∈ names, IsPart name)
    (nonempty : names ≠ []) : pieces (join names) = names.map String.toList := by
  have noSlash : ∀ piece ∈ names.map String.toList, '/' ∉ piece := by
    intro piece hp
    obtain ⟨name, hn, rfl⟩ := List.mem_map.1 hp
    exact (h name hn).2.2.2
  unfold pieces join
  rw [String.toList_intercalate, Text.splitOnChar_eq_splitOn]
  exact List.splitOn_intercalate '/' noSlash fun empty => nonempty (List.map_eq_nil_iff.1 empty)

/-- Only the path along no names is empty. -/
theorem join_eq_empty_iff {names : List String} (h : ∀ name ∈ names, IsPart name) :
    join names = "" ↔ names = [] := by
  constructor
  · intro empty
    by_contra nonempty
    have split := pieces_join h nonempty
    rw [empty] at split
    have none_ : [[]] = names.map String.toList := split
    have blank : [] ∈ names.map String.toList := by
      rw [← none_]
      exact List.mem_cons_self
    obtain ⟨name, hn, same⟩ := List.mem_map.1 blank
    exact (h name hn).1 (String.toList_inj.1 same)
  · rintro rfl
    rfl

/-- Different names make different paths. -/
theorem join_injective {names others : List String} (h : ∀ name ∈ names, IsPart name)
    (h' : ∀ name ∈ others, IsPart name) (same : join names = join others) : names = others := by
  have parts {names : List String} (h : ∀ name ∈ names, IsPart name) :
      ∀ name ∈ names, name ≠ "" ∧ '/' ∉ name.toList :=
    fun name inside => ⟨(h name inside).1, (h name inside).2.2.2⟩
  exact Text.intercalate_inj_of_ne rfl (parts h) (parts h') same

/-- A path along names holds the characters of the names and slashes. -/
theorem mem_join {names : List String} {c : Char} (h : c ∈ (join names).toList) :
    c = '/' ∨ ∃ name ∈ names, c ∈ name.toList :=
  (Text.mem_intercalate h).imp_left List.mem_singleton.1

/-- A path along names holds no zero. -/
theorem zero_not_mem_join {names : List String} (h : ∀ name ∈ names, IsName name) :
    Char.ofNat 0 ∉ (join names).toList := by
  intro zero
  rcases mem_join zero with slash | ⟨name, hn, hc⟩
  · exact absurd slash (by decide)
  · exact (h name hn).2.2.2.2 hc

/-- The last piece names what a path leads to. -/
theorem fileName?_of_getLast? {path : String} {piece : List Char} {name : String}
    (last : (pieces path).getLast? = some piece)
    (named : Component.ofPiece? piece = some (.named name)) : fileName? path = some name := by
  obtain ⟨before, split⟩ := List.getLast?_eq_some_iff.1 last
  unfold fileName? components
  rw [split, List.filterMap_append, List.filterMap_cons, named, List.filterMap_nil,
    ← List.append_assoc, List.getLast?_concat]
  rfl

/-- The characters of a path that goes on below a directory. -/
theorem toList_append_slash (directory rest : String) :
    (directory ++ "/" ++ rest).toList = directory.toList ++ '/' :: rest.toList := by
  rw [String.toList_append, String.toList_append, List.append_assoc]
  rfl

/-- The pieces of a path that goes on below a directory. -/
theorem pieces_append_slash (directory rest : String) :
    pieces (directory ++ "/" ++ rest) = pieces directory ++ pieces rest := by
  unfold pieces
  simp only [toList_append_slash, Text.splitOnChar_eq_splitOn]
  exact List.splitOn_append_cons_self _ _

/-- What a path along names leads to has the last one as its name, also when the path goes on from
a directory. -/
theorem fileName?_append_join {names : List String} (h : ∀ name ∈ names, IsName name)
    {name : String} (last : names.getLast? = some name) {lead : String}
    (ends : lead = "" ∨ ∃ directory, lead = directory ++ "/") :
    fileName? (lead ++ join names) = some name := by
  have nonempty : names ≠ [] := by
    rintro rfl
    exact absurd last (Option.some_ne_none _).symm
  have parts : ∀ name ∈ names, IsPart name := isPart_of_isName h
  have valid : IsPart name := parts name (List.mem_of_getLast? last)
  have joined : (names.map String.toList).getLast? = some name.toList := by
    rw [List.getLast?_map, last]
    rfl
  refine fileName?_of_getLast? ?_ (ofPiece?_part valid)
  rcases ends with rfl | ⟨directory, rfl⟩
  · rw [String.empty_append, pieces_join parts nonempty, joined]
  · rw [pieces_append_slash, pieces_join parts nonempty, List.getLast?_append, joined]
    rfl

/-- No name of a component holds a slash. -/
theorem not_mem_fileName {path name : String} (h : fileName? path = some name) :
    '/' ∉ name.toList := by
  unfold fileName? at h
  obtain ⟨component, last, named⟩ := Option.bind_eq_some_iff.1 h
  have isNamed : component = .named name := by
    cases component with
    | named other => exact congrArg Component.named (Option.some_inj.1 named)
    | root => exact absurd named (Option.some_ne_none _).symm
    | here => exact absurd named (Option.some_ne_none _).symm
    | up => exact absurd named (Option.some_ne_none _).symm
  subst isNamed
  have member := List.mem_of_getLast? last
  unfold components at member
  rw [List.mem_append] at member
  rcases member with lead | member
  · split_ifs at lead <;> simp at lead
  · obtain ⟨piece, hp, read⟩ := List.mem_filterMap.1 member
    have same : name = String.ofList piece := by
      unfold Component.ofPiece? at read
      split_ifs at read with isUp
      · exact absurd (Option.some_inj.1 read) Component.noConfusion
      · exact (Component.named.inj (Option.some_inj.1 read)).symm
    rw [same, String.toList_ofList]
    exact Text.not_mem_of_mem_splitOnChar hp

/-- An extension is a part of the name, behind its last dot. -/
theorem eq_of_nameExtension? {name extension : String} (h : nameExtension? name = some extension) :
    '.' ∉ extension.toList ∧ ∀ c ∈ extension.toList, c ∈ name.toList := by
  unfold nameExtension? at h
  cases cut : Text.splitLast? '.' name.toList with
  | none =>
    rw [cut] at h
    exact absurd h (Option.some_ne_none _).symm
  | some parts =>
    obtain ⟨stem, after⟩ := parts
    obtain ⟨whole, absent⟩ := Text.eq_of_splitLast? cut
    rw [cut] at h
    dsimp only at h
    split_ifs at h
    obtain rfl := Option.some_inj.1 h
    rw [String.toList_ofList]
    refine ⟨absent, fun c hc => ?_⟩
    rw [whole]
    exact List.mem_append_right stem (List.mem_cons_of_mem '.' hc)

/-- The extension of a path holds no dot and no slash. -/
theorem not_mem_extension {path extension : String} (h : extension? path = some extension) :
    '.' ∉ extension.toList ∧ '/' ∉ extension.toList := by
  obtain ⟨name, named, ext⟩ := Option.bind_eq_some_iff.1 h
  obtain ⟨noDot, part⟩ := eq_of_nameExtension? ext
  exact ⟨noDot, fun slash => not_mem_fileName named (part '/' slash)⟩

/-- What stands behind a stem and a dot is the extension, when it holds no dot itself. -/
theorem nameExtension?_append_dot {stem extension : String} (h : '.' ∉ extension.toList)
    (nonempty : stem ≠ "") : nameExtension? (stem ++ "." ++ extension) = some extension := by
  have text : (stem ++ "." ++ extension).toList = stem.toList ++ '.' :: extension.toList := by
    rw [String.toList_append, String.toList_append, List.append_assoc]
    rfl
  have filled : ¬stem.toList.isEmpty = true := by
    rw [List.isEmpty_iff]
    exact fun empty => nonempty (String.toList_inj.1 empty)
  unfold nameExtension?
  rw [text, Text.splitLast?_append_cons h]
  dsimp only
  rw [if_neg filled, String.ofList_toList]

end CodeDelta.Path
