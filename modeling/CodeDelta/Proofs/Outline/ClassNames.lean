import CodeDelta.Proofs.Outline.Blocks
import CodeDelta.Proofs.Render.LineBreaks
import CodeDelta.Proofs.Text.Trim
import CodeDelta.Syntax.RustTree

/-!
# Names of classes

A class that is declared has the name it is declared with, and a class made for blocks that hold
methods has their key: the text of the type before its first `<`, trimmed. Such a key is empty when
nothing but blanks stands there, as in front of a qualified path, and it keeps the line breaks that
stand inside. So the names of a file's classes show in one line each exactly when the declared names
do and, for every block with a method, so does what its type starts with
(`properName_classes_ofFile_iff`).
-/

namespace CodeDelta.Outline.Rust

/-- A name that shows in one line. -/
structure ProperName (name : String) : Prop where
  /-- It is not empty. -/
  nonempty : name ≠ ""
  /-- No line ends in it. -/
  unbroken : Render.Unbroken name

instance (name : String) : Decidable (ProperName name) :=
  decidable_of_iff (name ≠ "" ∧ Render.Unbroken name) ⟨fun h => ⟨h.1, h.2⟩, fun h => ⟨h.1, h.2⟩⟩

/-- What a type's text starts with: all of it, or what stands before its first `<`. -/
def typeHead (type : String) : List Char := type.toList.takeWhile (· != '<')

/-- A type whose text starts with a name that shows in one line. -/
structure StartsWithName (type : String) : Prop where
  /-- Something there is not blank. -/
  nonempty : ∃ c ∈ typeHead type, Text.isBlank c = false
  /-- A line ends there only in front of all that is not blank or behind it. -/
  unbroken : ∀ before after, typeHead type = before ++ '\n' :: after →
    (∀ c ∈ before, Text.isBlank c = true) ∨ ∀ c ∈ after, Text.isBlank c = true

/-- A key is not empty when something in front of the arguments is not blank. -/
theorem typeName_ne_empty_iff {type : String} :
    typeName type ≠ "" ↔ ∃ c ∈ typeHead type, Text.isBlank c = false := by
  have key : typeName type = String.ofList (Text.trim (typeHead type)) := rfl
  rw [key, ← String.ofList_nil, ne_eq, String.ofList_inj, Text.trim_eq_nil_iff]
  simp

/-- A key holds no break when none stands between parts of it. -/
theorem unbroken_typeName_iff {type : String} :
    Render.Unbroken (typeName type) ↔ ∀ before after, typeHead type = before ++ '\n' :: after →
      (∀ c ∈ before, Text.isBlank c = true) ∨ ∀ c ∈ after, Text.isBlank c = true := by
  have key : (typeName type).toList = Text.trim (typeHead type) := String.toList_ofList
  unfold Render.Unbroken
  rw [key, Text.mem_trim_iff (by decide), not_exists]
  refine forall_congr' fun before => ?_
  rw [not_exists]
  refine forall_congr' fun after => ?_
  rw [not_and, not_and_or]
  simp

/-- A key shows in one line exactly when the text of the type starts with such a name. -/
theorem properName_typeName_iff {type : String} :
    ProperName (typeName type) ↔ StartsWithName type where
  mp h := ⟨typeName_ne_empty_iff.1 h.nonempty, unbroken_typeName_iff.1 h.unbroken⟩
  mpr h := ⟨typeName_ne_empty_iff.2 h.nonempty, unbroken_typeName_iff.2 h.unbroken⟩

/-! ## The names of the classes -/

/-- Blocks add no name to types and take none away. -/
theorem names_attachAll (blocks : List Implementation) (seen : List String)
    (types : List Element) :
    (attachAll blocks seen types).map Element.name = types.map Element.name := by
  induction types generalizing seen with
  | nil => rfl
  | cons type rest ih => exact congrArg (type.name :: ·) (ih _)

/-- The name of a declared type. -/
theorem name_declaration (item : SyntaxTree) :
    (declaration item).name = (item.fieldText? "name").getD "" := by
  unfold declaration
  dsimp only
  split_ifs <;> rfl

/-- The blocks of a file are its items of that kind that name a type. -/
theorem mem_implementations {file : SyntaxTree} {block : Implementation} :
    block ∈ implementations file ↔ ∃ item ∈ file.children, item.kind = "impl_item" ∧
      ∃ type ∈ item.fieldText? "type",
        ⟨typeName type, (item.fieldText? "trait").map typeName, methods item⟩ = block := by
  unfold implementations implementation?
  rw [List.mem_filterMap]
  refine exists_congr fun item => and_congr_right fun _ => ?_
  split_ifs with kind
  · rw [Option.map_eq_some_iff, and_iff_right kind]
    rfl
  · simp [kind]

/-- The names of a file's classes are the declared ones and the keys of blocks that hold methods. -/
theorem mem_names_classes {file : SyntaxTree} {name : String} :
    name ∈ (classes file).map Element.name ↔
      name ∈ ((file.children.filter isDeclaration).map declaration).map Element.name ∨
      ∃ block ∈ implementations file, block.methods ≠ [] ∧ block.type = name := by
  rw [classes_eq, names_attachAll, declaredTypes_eq]
  constructor
  · unfold bareClasses
    rw [List.map_append, List.map_map, List.mem_append]
    refine Or.imp_right fun foreign => ?_
    obtain ⟨key, hk, rfl⟩ := List.mem_map.1 foreign
    obtain ⟨-, item, ofKey, holds⟩ := mem_foreignKeys.1 hk
    exact ⟨forKey key item, mem_implementations_iff.2 ⟨item, ofKey, rfl⟩,
      methods_forKey_ne_nil_iff.2 holds, rfl⟩
  · rintro (declared | ⟨block, inFile, holds, rfl⟩)
    · unfold bareClasses
      rw [List.map_append]
      exact List.mem_append_left _ declared
    · obtain ⟨item, ofKey, made⟩ := mem_implementations_iff.1 inFile
      exact key_mem_bareClasses ofKey (methods_forKey_ne_nil_iff.1 (made ▸ holds))

/-- The names of a file's classes show in one line exactly when declared names do and the text of
every type that a block with a method is for starts with a name that does. -/
theorem properName_classes_ofFile_iff (path : String) (file : SyntaxTree) :
    (∀ owner ∈ (ofFile path file).classes, ProperName owner.name) ↔
      (∀ item ∈ file.children, isDeclaration item = true →
        ProperName ((item.fieldText? "name").getD "")) ∧
      ∀ item ∈ file.children, item.kind = "impl_item" → methods item ≠ [] →
        ∀ type ∈ item.fieldText? "type", StartsWithName type := by
  have names : (∀ owner ∈ (ofFile path file).classes, ProperName owner.name) ↔
      ∀ name ∈ (classes file).map Element.name, ProperName name := List.forall_mem_map.symm
  rw [names]
  constructor
  · refine fun proper =>
      ⟨fun item inFile declares => ?_, fun item inFile kind holds type given => ?_⟩
    · rw [← name_declaration]
      refine proper _ (mem_names_classes.2 (Or.inl ?_))
      exact List.mem_map_of_mem (List.mem_map_of_mem (List.mem_filter.2 ⟨inFile, declares⟩))
    · have block := mem_implementations.2 ⟨item, inFile, kind, type, given, rfl⟩
      exact properName_typeName_iff.1
        (proper _ (mem_names_classes.2 (Or.inr ⟨_, block, holds, rfl⟩)))
  · rintro ⟨declared, implemented⟩ name inside
    rcases mem_names_classes.1 inside with own | ⟨block, inFile, holds, rfl⟩
    · obtain ⟨type, ht, rfl⟩ := List.mem_map.1 own
      obtain ⟨item, hi, rfl⟩ := List.mem_map.1 ht
      obtain ⟨inFile, declares⟩ := List.mem_filter.1 hi
      rw [name_declaration]
      exact declared item inFile declares
    · obtain ⟨item, hi, kind, type, given, rfl⟩ := mem_implementations.1 inFile
      exact properName_typeName_iff.2 (implemented item hi kind holds type given)

/-- A block for the type behind a qualified path makes a class without a name, and of its methods
no comparison tells. -/
theorem not_properName_classes_ofFile_qualified :
    let file := ofFile "a.rs" (Syntax.Rust.parse
      "impl Draw for <Pen as Tool>::Ink \x7b\n    fn draw(&self) \x7b\x7d\n\x7d\n".toList)
    let other := ofFile "a.rs" (Syntax.Rust.parse
      "impl Draw for <Pen as Tool>::Ink \x7b\n    fn fill(&self) \x7b\x7d\n\x7d\n".toList)
    (file.classes.map fun owner => (owner.name, owner.methodNames)) = [("", ["draw"])] ∧
      (other.classes.map fun owner => (owner.name, owner.methodNames)) = [("", ["fill"])] ∧
      (file.diff other).hasChanges = false ∧
      ¬∀ owner ∈ file.classes, ProperName owner.name := by
  decide +kernel

end CodeDelta.Outline.Rust
