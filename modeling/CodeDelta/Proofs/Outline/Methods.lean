import CodeDelta.Outline
import CodeDelta.Proofs.Outline.Yields
import Mathlib.Tactic.SplitIfs

/-!
# Methods of outlines

An analyzer does not know where a file belongs in a directory, so what it makes of the file says
nothing of it: every method of an outline was made by the function for functions, wherever it was
attached afterwards, and names no file (`Language.file_method_outline`).
-/

namespace CodeDelta

namespace Outline.Python

/-- A method of a class names no file. -/
theorem file_of_method? {statement : SyntaxTree} {method : Element}
    (h : method? statement = some method) : method.file = none := by
  obtain ⟨_, -, rfl⟩ := method?_eq_some_iff.1 h
  rfl

/-- The methods of a class name no file. -/
theorem file_method_classOf {definition whole : SyntaxTree} {method : Element}
    (h : method ∈ (classOf definition whole).methods) : method.file = none := by
  rw [methods_classOf] at h
  obtain ⟨statement, -, made⟩ := List.mem_filterMap.1 h
  exact file_of_method? made

/-- The methods of a module's classes name no file. -/
theorem file_method_ofModule {path : String} {module_ : SyntaxTree} :
    ∀ owner ∈ (ofModule path module_).classes, ∀ method ∈ owner.methods, method.file = none := by
  intro owner ho method hm
  obtain ⟨statement, -, yields⟩ := mem_elements_iff.1 ho
  obtain ⟨definition, -, rfl⟩ := yields_classDef_iff.1 yields
  exact file_method_classOf hm

end Outline.Python

namespace Outline.Rust

/-- The methods in a body name no file. -/
theorem file_of_mem_methods {item : SyntaxTree} {method : Element} (h : method ∈ methods item) :
    method.file = none := by
  unfold methods at h
  cases body : item.field? "body" with
  | none =>
    rw [body] at h
    exact absurd h List.not_mem_nil
  | some body' =>
    rw [body, Option.map_some, Option.getD_some] at h
    obtain ⟨definition, -, rfl⟩ := List.mem_map.1 h
    rfl

/-- The methods of a declared type name no file. -/
theorem file_method_declaration {item : SyntaxTree} {method : Element}
    (h : method ∈ (declaration item).methods) : method.file = none := by
  unfold declaration at h
  dsimp only at h
  split_ifs at h
  · exact file_of_mem_methods h
  · exact absurd h List.not_mem_nil

/-- The methods of a block name no file. -/
theorem file_method_implementations {file : SyntaxTree} :
    ∀ block ∈ implementations file, ∀ method ∈ block.methods, method.file = none := by
  intro block hb method hm
  obtain ⟨item, -, made⟩ := List.mem_filterMap.1 hb
  unfold implementation? at made
  split_ifs at made
  obtain ⟨type, -, rfl⟩ := Option.map_eq_some_iff.1 made
  exact file_of_mem_methods hm

/-- The methods of a type with its blocks are its own and those of the blocks. -/
theorem mem_methods_attach {blocks : List Implementation} {type method : Element} :
    method ∈ (attach blocks type).methods ↔
      method ∈ type.methods ∨ ∃ block ∈ blocks, method ∈ block.methods := by
  unfold attach
  rw [List.mem_append, List.mem_flatMap]

/-- A method of a declared type with its blocks was declared or stands in a block. -/
theorem mem_methods_attachAll {blocks : List Implementation} {method owner : Element}
    (types : List Element) (seen : List String) (ho : owner ∈ attachAll blocks seen types)
    (hm : method ∈ owner.methods) :
    (∃ type ∈ types, method ∈ type.methods) ∨ ∃ block ∈ blocks, method ∈ block.methods := by
  induction types generalizing seen with
  | nil => exact absurd ho List.not_mem_nil
  | cons type rest ih =>
    rcases List.mem_cons.1 ho with rfl | later
    · rcases mem_methods_attach.1 hm with own | ⟨block, hb, attached⟩
      · exact Or.inl ⟨type, List.mem_cons_self, own⟩
      · split_ifs at hb
        · exact absurd hb List.not_mem_nil
        · exact Or.inr ⟨block, (List.mem_filter.1 hb).1, attached⟩
    · rcases ih _ later with ⟨declared, hd, own⟩ | attached
      · exact Or.inl ⟨declared, List.mem_cons_of_mem _ hd, own⟩
      · exact Or.inr attached

/-- A method of a type that is not declared stands in a block. -/
theorem mem_methods_foreignTypes {blocks : List Implementation} {declared : List String}
    {method owner : Element} (ho : owner ∈ foreignTypes blocks declared)
    (hm : method ∈ owner.methods) : ∃ block ∈ blocks, method ∈ block.methods := by
  obtain ⟨name, -, rfl⟩ := List.mem_map.1 ho
  rcases mem_methods_attach.1 hm with own | ⟨block, hb, attached⟩
  · exact absurd own List.not_mem_nil
  · exact ⟨block, (List.mem_filter.1 hb).1, attached⟩

/-- The methods of a file's classes name no file. -/
theorem file_method_ofFile {path : String} {file : SyntaxTree} :
    ∀ owner ∈ (ofFile path file).classes, ∀ method ∈ owner.methods, method.file = none := by
  intro owner ho method hm
  have attached : (∃ block ∈ implementations file, method ∈ block.methods) → method.file = none :=
    fun ⟨block, hb, inside⟩ => file_method_implementations block hb method inside
  rcases List.mem_append.1 ho with declared | foreign
  · rcases mem_methods_attachAll _ _ declared hm with ⟨type, ht, own⟩ | inside
    · obtain ⟨item, -, rfl⟩ := List.mem_map.1 ht
      exact file_method_declaration own
    · exact attached inside
  · exact attached (mem_methods_foreignTypes foreign hm)

end Outline.Rust

/-- The methods of an outline name no file. -/
theorem Language.file_method_outline (language : Language) (path : String) (tree : SyntaxTree) :
    ∀ owner ∈ (language.outline path tree).classes, ∀ method ∈ owner.methods,
      method.file = none := by
  cases language with
  | python => exact Outline.Python.file_method_ofModule
  | rust => exact Outline.Rust.file_method_ofFile

end CodeDelta
