import CodeDelta.Proofs.Diff.ByFile
import CodeDelta.Proofs.Diff.Lookup
import CodeDelta.Proofs.Outline.Methods

/-!
# The file of a found element

A directory's structure says of each element from which file it came, but not of the methods, which
stay as they were inside their classes. A look-up by name answers methods too. So what it finds
names its file when a function or a class has the name (`Found.namesItsFile`), and is a method as
it stood in its file when none has (`Found.exists_method`). The methods of an outline name no file
(`Language.file_method_outline`), hence in a directory of source files these two cases tell exactly
when the file of a found element is known.
-/

namespace CodeDelta

namespace Structure

/-- Whether a function or a class has the name. -/
def Declares (structure_ : Structure) (name : String) : Prop :=
  ∃ element ∈ structure_.functions ++ structure_.classes, element.name = name

/-- Whether an element is listed, or is a method of a class that is. -/
def Contains (structure_ : Structure) (element : Element) : Prop :=
  (∃ category, element ∈ structure_.elements category) ∨
    ∃ owner ∈ structure_.classes, element ∈ owner.methods

/-- Whether an element carries the path of a gathered file that contains it. -/
def NamesItsFile (files : List (String × Structure)) (element : Element) : Prop :=
  ∃ file ∈ files, ∃ original, file.2.Contains original ∧ element = original.inFile file.1

variable {path name : String} {files : List (String × Structure)} {category : Category}
  {element : Element}

/-- A directory declares what its files declare. -/
theorem declares_ofFiles :
    (ofFiles path files).Declares name ↔ ∃ file ∈ files, file.2.Declares name := by
  have listed : ∀ category, (∃ element ∈ (ofFiles path files).elements category,
      element.name = name) ↔
        ∃ file ∈ files, ∃ original ∈ file.2.elements category, original.name = name := by
    intro category
    constructor
    · rintro ⟨element, he, named⟩
      obtain ⟨file, hf, original, ho, rfl⟩ := mem_elements_ofFiles.1 he
      exact ⟨file, hf, original, ho, named⟩
    · rintro ⟨file, hf, original, ho, named⟩
      exact ⟨_, mem_elements_ofFiles.2 ⟨file, hf, original, ho, rfl⟩, named⟩
  have functions := listed .function
  have classes := listed .classDef
  unfold Declares
  simp only [elements, List.mem_append, or_and_right, exists_or, and_or_left] at functions classes ⊢
  rw [functions, classes]

/-- What is found under a name that is declared is listed. -/
theorem Found.mem_elements {structure_ : Structure}
    (found : structure_.Found name category element) (h : structure_.Declares name) :
    element ∈ structure_.elements category := by
  cases found with
  | function first => exact List.mem_of_find?_eq_some first
  | classDef _ first => exact List.mem_of_find?_eq_some first
  | method noFunction noClass owned first =>
    obtain ⟨declared, hd, named⟩ := h
    rcases List.mem_append.1 hd with hd | hd
    · exact absurd (beq_iff_eq.2 named) (List.find?_eq_none.1 noFunction declared hd)
    · exact absurd (beq_iff_eq.2 named) (List.find?_eq_none.1 noClass declared hd)

/-- What is found under a name that is not declared is a method. -/
theorem Found.exists_owner {structure_ : Structure}
    (found : structure_.Found name category element) (h : ¬structure_.Declares name) :
    ∃ owner ∈ structure_.classes, element ∈ owner.methods := by
  have named := found.name_eq
  cases found with
  | function first =>
    exact absurd ⟨element, List.mem_append_left _ (List.mem_of_find?_eq_some first), named⟩ h
  | classDef _ first =>
    exact absurd ⟨element, List.mem_append_right _ (List.mem_of_find?_eq_some first), named⟩ h
  | method _ _ owned first => exact ⟨_, owned, List.mem_of_find?_eq_some first⟩

/-- An element that is found in a directory names its file when some file declares the name. -/
theorem Found.namesItsFile (found : (ofFiles path files).Found name category element)
    (h : ∃ file ∈ files, file.2.Declares name) : NamesItsFile files element := by
  obtain ⟨file, hf, original, ho, rfl⟩ :=
    mem_elements_ofFiles.1 (found.mem_elements (declares_ofFiles.2 h))
  exact ⟨file, hf, original, Or.inl ⟨category, ho⟩, rfl⟩

/-- An element that is found in a directory is a method, as it stood in its file, when no file
declares the name. -/
theorem Found.exists_method (found : (ofFiles path files).Found name category element)
    (h : ¬∃ file ∈ files, file.2.Declares name) :
    ∃ file ∈ files, ∃ owner ∈ file.2.classes, element ∈ owner.methods := by
  have undeclared : ¬(ofFiles path files).Declares name := fun declares =>
    h (declares_ofFiles.1 declares)
  obtain ⟨owner, owned, method⟩ := found.exists_owner undeclared
  have listed : owner ∈ (ofFiles path files).elements .classDef := owned
  obtain ⟨file, hf, original, ho, rfl⟩ := mem_elements_ofFiles.1 listed
  exact ⟨file, hf, original, ho, method⟩

/-- As long as methods name no file, an element that is found in a directory names its file exactly
when some file declares the name. -/
theorem Found.namesItsFile_iff (found : (ofFiles path files).Found name category element)
    (untagged : ∀ file ∈ files, ∀ owner ∈ file.2.classes, ∀ method ∈ owner.methods,
      method.file = none) :
    NamesItsFile files element ↔ ∃ file ∈ files, file.2.Declares name := by
  refine ⟨fun names => ?_, found.namesItsFile⟩
  by_contra undeclared
  obtain ⟨file, hf, owner, ho, he⟩ := found.exists_method undeclared
  obtain ⟨other, -, original, -, rfl⟩ := names
  exact absurd (untagged file hf owner ho _ he) (Option.some_ne_none _)

/-- In a directory of source files a found element names its file exactly when some file declares
the name. -/
theorem Found.namesItsFile_iff_of_outlines
    (found : (ofFiles path files).Found name category element)
    (outlines : ∀ file ∈ files, ∃ (language : Language) (label : String) (tree : SyntaxTree),
      file.2 = language.outline label tree) :
    NamesItsFile files element ↔ ∃ file ∈ files, file.2.Declares name := by
  refine found.namesItsFile_iff fun file hf => ?_
  obtain ⟨language, label, tree, same⟩ := outlines file hf
  rw [same]
  exact language.file_method_outline label tree

/-- An element that is looked up in a directory names its file when a function or a class of some
file has the name. When none has, it is a method as it stood in its file, with the tag it had there;
where methods have none, it names its file in the first case only. -/
theorem origin_of_find? (h : (ofFiles path files).find? name = some (category, element)) :
    ((∃ file ∈ files, file.2.Declares name) → NamesItsFile files element) ∧
    ((¬∃ file ∈ files, file.2.Declares name) →
      ∃ file ∈ files, ∃ owner ∈ file.2.classes, element ∈ owner.methods) ∧
    ((∀ file ∈ files, ∀ owner ∈ file.2.classes, ∀ method ∈ owner.methods, method.file = none) →
      (NamesItsFile files element ↔ ∃ file ∈ files, file.2.Declares name)) :=
  ⟨(found_of_find? h).namesItsFile, (found_of_find? h).exists_method,
    (found_of_find? h).namesItsFile_iff⟩

/-- Two files, one with a class that has a method, the other with a function. -/
def storeFiles : List (String × Structure) :=
  [("a.py", { blank with classes := [{ Element.named "Store" with methods := [.named "save"] }] }),
    ("b.py", { blank with functions := [.named "load"] })]

/-- The function that is looked up names its file, and the method is found as it stood in its. -/
theorem origin_of_find?_storeFiles :
    (ofFiles "src" storeFiles).find? "load" =
      some (.function, { Element.named "load" with file := some "b.py" }) ∧
    NamesItsFile storeFiles { Element.named "load" with file := some "b.py" } ∧
    (ofFiles "src" storeFiles).find? "save" = some (.function, .named "save") ∧
    ∃ file ∈ storeFiles, ∃ owner ∈ file.2.classes, Element.named "save" ∈ owner.methods := by
  have declared : ∃ file ∈ storeFiles, file.2.Declares "load" :=
    ⟨_, List.mem_cons_of_mem _ List.mem_cons_self, _, List.mem_cons_self, rfl⟩
  have undeclared : ¬∃ file ∈ storeFiles, file.2.Declares "save" := by
    unfold Declares
    decide
  have function : (ofFiles "src" storeFiles).find? "load" =
      some (.function, { Element.named "load" with file := some "b.py" }) := rfl
  have method : (ofFiles "src" storeFiles).find? "save" = some (.function, .named "save") := rfl
  exact ⟨function, (origin_of_find? function).1 declared, method,
    (origin_of_find? method).2.1 undeclared⟩

/-- A method that is looked up does not name its file. -/
theorem find?_storeFiles_method :
    (ofFiles "src" storeFiles).find? "save" = some (.function, .named "save") ∧
    ¬NamesItsFile storeFiles (.named "save") := by
  refine ⟨rfl, ?_⟩
  rintro ⟨file, -, original, -, same⟩
  exact absurd (congrArg Element.file same) (Option.some_ne_none _).symm

end Structure

end CodeDelta
