import CodeDelta.Structure

/-!
# Elements found by name

A look-up answers the first function of the name, else the first class, else the first method of
some class, which it calls a function. `Structure.Found` lists these three ways, and
`found_of_find?` says that there is no other.
-/

namespace CodeDelta

namespace Structure

variable {structure_ : Structure} {name : String} {category : Category} {element : Element}

/-- The ways in which a look-up finds an element. -/
inductive Found (structure_ : Structure) (name : String) : Category → Element → Prop
  /-- The first function of the name. -/
  | function {element : Element}
      (first : (structure_.functions.find? fun element => element.name == name) = some element) :
      Found structure_ name .function element
  /-- The first class of the name, when no function has it. -/
  | classDef {element : Element}
      (noFunction : (structure_.functions.find? fun element => element.name == name) = none)
      (first : (structure_.classes.find? fun element => element.name == name) = some element) :
      Found structure_ name .classDef element
  /-- The first method of the name in a class, when no function and no class has it. -/
  | method {owner element : Element}
      (noFunction : (structure_.functions.find? fun element => element.name == name) = none)
      (noClass : (structure_.classes.find? fun element => element.name == name) = none)
      (owned : owner ∈ structure_.classes) (first : owner.findMethod? name = some element) :
      Found structure_ name .function element

/-- What a look-up answers was found in one of these ways. -/
theorem found_of_find? (h : structure_.find? name = some (category, element)) :
    structure_.Found name category element := by
  unfold find? at h
  split at h
  · next function first =>
    obtain ⟨rfl, rfl⟩ := Prod.mk.inj (Option.some.inj h)
    exact .function first
  · next noFunction =>
    split at h
    · next classDef first =>
      obtain ⟨rfl, rfl⟩ := Prod.mk.inj (Option.some.inj h)
      exact .classDef noFunction first
    · next noClass =>
      obtain ⟨method, found, same⟩ := Option.map_eq_some_iff.1 h
      obtain ⟨rfl, rfl⟩ := Prod.mk.inj same
      obtain ⟨owner, owned, first⟩ := List.exists_of_findSome?_eq_some found
      exact .method noFunction noClass owned first

/-- An element that is found has the name. -/
theorem Found.name_eq (found : structure_.Found name category element) : element.name = name := by
  cases found with
  | function first =>
    have same := List.find?_some first
    exact beq_iff_eq.1 same
  | classDef _ first =>
    have same := List.find?_some first
    exact beq_iff_eq.1 same
  | method _ _ _ first =>
    have same := List.find?_some first
    exact beq_iff_eq.1 same

/-- No import is ever found. -/
theorem Found.ne_importDecl (found : structure_.Found name category element) :
    category ≠ .importDecl := by
  cases found <;> exact Category.noConfusion

/-- What holds of all functions and classes and of the methods of whatever it holds of, holds of
an element that is found. -/
theorem Found.forall {P : Element → Prop} (found : structure_.Found name category element)
    (elements : ∀ category, ∀ element ∈ structure_.elements category, P element)
    (methods : ∀ owner, P owner → ∀ method ∈ owner.methods, P method) : P element := by
  cases found with
  | function first => exact elements .function element (List.mem_of_find?_eq_some first)
  | classDef _ first => exact elements .classDef element (List.mem_of_find?_eq_some first)
  | @method owner _ _ _ owned first =>
    have holds := elements .classDef owner owned
    exact methods owner holds element (List.mem_of_find?_eq_some first)

/-- Nothing is found under a name that no function, no class and no method has. -/
theorem name_ne_of_find?_eq_none (h : structure_.find? name = none) :
    ∀ category ≠ .importDecl, ∀ element ∈ structure_.elements category, element.name ≠ name := by
  unfold find? at h
  split at h
  · exact absurd h (Option.some_ne_none _)
  · next noFunction =>
    split at h
    · exact absurd h (Option.some_ne_none _)
    · next noClass =>
      intro category noImport element he same
      cases category with
      | function => exact List.find?_eq_none.1 noFunction element he (beq_iff_eq.2 same)
      | classDef => exact List.find?_eq_none.1 noClass element he (beq_iff_eq.2 same)
      | importDecl => exact noImport rfl

end Structure

end CodeDelta
