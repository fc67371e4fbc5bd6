import CodeDelta.Proofs.Locator.Parts
import Mathlib.Tactic.SplitIfs

/-!
# Elements behind a path

A compound locator is read without the lead that may stand in front of it. Its two sides are read
as locators of one resource, and only of a path on the right something may be taken off: the name
behind its last slash, where the path in front of the slash exists and the whole does not
(`NamesElement`, `Compound.Of`). Nothing gets lost on the way: the two sides with the colon between
them are the text, each side spells its locator (`Spells`), and the element put behind the path
again gives the right one (`Compound.rejoined`).
-/

namespace CodeDelta.Locator

open Text

/-! ## Texts and their locators -/

/-- How a text tells a locator: as a bare path, or as the name of a scheme, in letters of any case,
and a resource. -/
inductive Spells : String → Locator → Prop
  /-- A path stands for itself. -/
  | bare (path : String) : Spells path ⟨fileScheme, path⟩
  /-- A resource stands behind its scheme. -/
  | qualified (scheme : String) (named : isSchemeName scheme.toList = true) (resource : String) :
      Spells (scheme ++ "://" ++ resource) ⟨lowerAscii scheme, resource⟩

/-- A text spells the locator that it is read as. -/
theorem spells_parse (text : String) : Spells text (Locator.parse text) := by
  unfold Locator.parse
  cases cut : splitMarker? text.toList with
  | none => exact .bare text
  | some parts =>
    obtain ⟨scheme, resource⟩ := parts
    dsimp only
    split_ifs with named
    · have whole : text = String.ofList scheme ++ "://" ++ String.ofList resource := by
        rw [← String.toList_inj, (eq_of_splitMarker? cut).1]
        simp only [String.toList_append, String.toList_ofList]
        rfl
      have qualified := Spells.qualified (String.ofList scheme)
        (by rw [String.toList_ofList]; exact named) (String.ofList resource)
      unfold lowerAscii at qualified
      rw [String.toList_ofList, ← whole] at qualified
      exact qualified
    · exact .bare text

/-! ## The name behind the last slash -/

/-- A resource that does not exist is a path that does, a slash and the name of an element. -/
structure NamesElement (pathExists : String → Bool) (resource path element : String) : Prop where
  /-- The parts make up the resource. -/
  whole : resource = path ++ "/" ++ element
  /-- There is a path. -/
  path_ne : path ≠ ""
  /-- There is a name. -/
  element_ne : element ≠ ""
  /-- The name stands behind the last slash. -/
  last : '/' ∉ element.toList
  /-- The path leads somewhere. -/
  leads : pathExists path = true
  /-- The whole does not. -/
  missing : pathExists (path ++ "/" ++ element) = false

/-- The characters of a path, a slash and a name. -/
theorem toList_join_slash (path element : String) :
    (path ++ "/" ++ element).toList = path.toList ++ '/' :: element.toList := by
  rw [String.toList_append, String.toList_append, List.append_assoc]
  rfl

section Resource

variable {pathExists : String → Bool} {resource path element : String}

/-- The parts around the last slash of a resource. -/
theorem eq_join_of_splitLast? {base name : List Char}
    (cut : splitLast? '/' resource.toList = some (base, name)) :
    resource = String.ofList base ++ "/" ++ String.ofList name ∧ '/' ∉ name := by
  obtain ⟨whole, last⟩ := eq_of_splitLast? cut
  refine ⟨?_, last⟩
  rw [← String.toList_inj, toList_join_slash, String.toList_ofList, String.toList_ofList]
  exact whole

/-- An element that is taken off is named. -/
theorem namesElement_of_splitElement (h : splitElement resource pathExists = (path, some element)) :
    NamesElement pathExists resource path element := by
  unfold splitElement at h
  split_ifs at h with exists_
  · exact absurd (Prod.mk.inj h).2.symm (Option.some_ne_none element)
  · split at h
    · next base name cut =>
      obtain ⟨whole, last⟩ := eq_join_of_splitLast? cut
      split_ifs at h with taken
      · -- Both parts hold characters, and the one in front leads somewhere.
        obtain ⟨rfl, named⟩ := Prod.mk.inj h
        obtain rfl := Option.some_inj.1 named
        rw [Bool.and_eq_true, Bool.and_eq_true, Bool.not_eq_true', Bool.not_eq_true',
          List.isEmpty_eq_false_iff, List.isEmpty_eq_false_iff] at taken
        exact
          { whole := whole
            path_ne := fun empty => taken.1.1 (String.ofList_eq_empty_iff.1 empty)
            element_ne := fun empty => taken.1.2 (String.ofList_eq_empty_iff.1 empty)
            last := by rw [String.toList_ofList]; exact last
            leads := taken.2
            missing := by rw [← whole]; exact Bool.eq_false_iff.2 exists_ }
      · exact absurd (Prod.mk.inj h).2.symm (Option.some_ne_none element)
    · exact absurd (Prod.mk.inj h).2.symm (Option.some_ne_none element)

/-- An element that is named is taken off. -/
theorem NamesElement.splitElement_eq (h : NamesElement pathExists resource path element) :
    splitElement resource pathExists = (path, some element) := by
  obtain ⟨rfl, path_ne, element_ne, last, leads, missing⟩ := h
  have cut : splitLast? '/' (path ++ "/" ++ element).toList =
      some (path.toList, element.toList) := by
    rw [toList_join_slash]
    exact splitLast?_append_cons last path.toList
  have base : path.toList.isEmpty = false :=
    List.isEmpty_eq_false_iff.2 fun none_ => path_ne (String.toList_eq_nil_iff.1 none_)
  have name : element.toList.isEmpty = false :=
    List.isEmpty_eq_false_iff.2 fun none_ => element_ne (String.toList_eq_nil_iff.1 none_)
  unfold splitElement
  rw [missing, cut]
  simp only [base, name, String.ofList_toList, leads, Bool.not_false, Bool.and_self, if_true,
    Bool.false_eq_true, if_false]

/-- No resource names two elements. -/
theorem NamesElement.unique {path' element' : String}
    (h : NamesElement pathExists resource path element)
    (h' : NamesElement pathExists resource path' element') : path = path' ∧ element = element' := by
  have both := h.splitElement_eq.symm.trans h'.splitElement_eq
  rw [Prod.mk.injEq, Option.some_inj] at both
  exact both

/-- Where no element is named the resource stays as it is. -/
theorem splitElement_of_forall_not
    (none_ : ∀ path element, ¬NamesElement pathExists resource path element) :
    splitElement resource pathExists = (resource, none) := by
  -- A resource is cut in two or not at all, and a cut would name an element.
  have stays : splitElement resource pathExists = (resource, none) ∨
      ∃ path element, splitElement resource pathExists = (path, some element) := by
    unfold splitElement
    split_ifs
    · exact Or.inl rfl
    · split
      · split_ifs
        · exact Or.inr ⟨_, _, rfl⟩
        · exact Or.inl rfl
      · exact Or.inl rfl
  refine stays.resolve_right ?_
  rintro ⟨path, element, taken⟩
  exact none_ path element (namesElement_of_splitElement taken)

end Resource

/-! ## The whole locator -/

/-- The text without the lead that may stand in front of it; of two leads one stays. -/
def withoutLead (text : String) : String :=
  if compoundLead <+: text.toList then String.ofList (text.toList.drop compoundLead.length)
  else text

/-- The right side with the element behind its path again. -/
def Compound.rejoined (compound : Compound) : Locator :=
  match compound.element with
  | none => compound.right
  | some element => ⟨compound.right.scheme, compound.right.resource ++ "/" ++ element⟩

/-- A text is read without its lead. -/
theorem ofList_dropLead? (text : String) :
    String.ofList ((dropLead? compoundLead text.toList).getD text.toList) = withoutLead text := by
  unfold withoutLead
  split_ifs with led
  · obtain ⟨rest, whole⟩ := led
    rw [← whole, dropLead?_append, List.drop_left, Option.getD_some]
  · cases found : dropLead? compoundLead text.toList with
    | none => exact String.ofList_toList
    | some rest => exact absurd ⟨rest, (eq_of_dropLead? found).symm⟩ led

/-- A text that is not split is not read, for the same reason. -/
theorem Compound.parse_of_error {text : String} {fault : Fault} (pathExists : String → Bool)
    (h : splitCompound (withoutLead text) = .error fault) :
    Compound.parse text pathExists = .error fault := by
  unfold Compound.parse
  dsimp only
  rw [ofList_dropLead?, h]

/-- How the two sides of a text are read. -/
inductive Compound.Of (pathExists : String → Bool) (left right : String) : Compound → Prop
  /-- A path on the right that names an element gives it away. -/
  | element {path element : String} (file : (Locator.parse right).isFile = true)
      (named : NamesElement pathExists (Locator.parse right).resource path element) :
      Of pathExists left right ⟨Locator.parse left, ⟨fileScheme, path⟩, some element⟩
  /-- Every other right side is read as it is. -/
  | whole (none_ : (Locator.parse right).isFile = true → ∀ path element,
        ¬NamesElement pathExists (Locator.parse right).resource path element) :
      Of pathExists left right ⟨Locator.parse left, Locator.parse right, none⟩

/-- A text that is split is read from its two sides. -/
theorem Compound.exists_of_ok {text left right : String} (pathExists : String → Bool)
    (h : splitCompound (withoutLead text) = .ok (left, right)) :
    ∃ compound, Compound.parse text pathExists = .ok compound ∧
      Compound.Of pathExists left right compound := by
  unfold Compound.parse
  dsimp only
  rw [ofList_dropLead?, h]
  dsimp only
  split_ifs with file
  · by_cases named : ∃ path element,
        NamesElement pathExists (Locator.parse right).resource path element
    · obtain ⟨path, element, named⟩ := named
      rw [named.splitElement_eq]
      exact ⟨_, rfl, .element file named⟩
    · have none_ : ∀ path element,
          ¬NamesElement pathExists (Locator.parse right).resource path element :=
        fun path element here => named ⟨path, element, here⟩
      rw [splitElement_of_forall_not none_]
      exact ⟨_, rfl, .whole fun _ => none_⟩
  · exact ⟨_, rfl, .whole fun here => absurd here file⟩

namespace Compound.Of

variable {pathExists : String → Bool} {left right : String} {compound : Compound}

/-- The left side is read as it is. -/
theorem left_eq (h : Of pathExists left right compound) :
    compound.left = Locator.parse left := by
  cases h <;> rfl

/-- An element is answered exactly when the right side is a path that names it. -/
theorem element_eq_some_iff (h : Of pathExists left right compound) (element : String) :
    compound.element = some element ↔ (Locator.parse right).isFile = true ∧
      ∃ path, NamesElement pathExists (Locator.parse right).resource path element := by
  cases h with
  | @element path name file named =>
    rw [Option.some_inj]
    constructor
    · rintro rfl
      exact ⟨file, path, named⟩
    · rintro ⟨-, other, named'⟩
      exact (named.unique named').2
  | whole none_ =>
    refine iff_of_false (Option.some_ne_none element).symm ?_
    rintro ⟨file, path, named⟩
    exact none_ file path element named

/-- A right side that names an element is the path in front of it. -/
theorem right_eq_of_named (h : Of pathExists left right compound) {path element : String}
    (file : (Locator.parse right).isFile = true)
    (named : NamesElement pathExists (Locator.parse right).resource path element) :
    compound.right = ⟨fileScheme, path⟩ := by
  cases h with
  | element _ named' => rw [(named.unique named').1]
  | whole none_ => exact absurd named (none_ file path element)

/-- Without an element the right side is read as it is. -/
theorem right_eq_of_none (h : Of pathExists left right compound) (none_ : compound.element = none) :
    compound.right = Locator.parse right := by
  cases h with
  | element => exact absurd none_ (Option.some_ne_none _)
  | whole => rfl

/-- The element behind its path again gives the right side. -/
theorem rejoined_eq (h : Of pathExists left right compound) :
    compound.rejoined = Locator.parse right := by
  cases h with
  | element file named =>
    -- Only a path is cut, so its scheme is the one that the path in front is given.
    have scheme : (Locator.parse right).scheme = fileScheme := eq_of_beq file
    unfold rejoined
    dsimp only
    rw [← named.whole, ← scheme]
  | whole => rfl

/-- A path that is left names no further element. -/
theorem splitElement_right (h : Of pathExists left right compound)
    (file : compound.right.isFile = true) :
    splitElement compound.right.resource pathExists = (compound.right.resource, none) := by
  cases h with
  | element _ named => exact if_pos named.leads
  | whole none_ => exact splitElement_of_forall_not (none_ file)

end Compound.Of

/-- The two sides of a text are its parts around a colon. -/
theorem eq_join_of_splitCompound {text left right : String}
    (h : splitCompound text = .ok (left, right)) : text = left ++ ":" ++ right := by
  have split := (splitSides_eq_ok_iff.1 (splitCompound_eq_ok_iff.1 h)).1
  rw [← String.toList_inj, (separates_of_splitFor? split).whole, String.toList_append,
    String.toList_append, List.append_assoc]
  rfl

/-- A compound locator is refused exactly when its text without the lead is not split, for the same
reason. Otherwise the left side is read as it is; an element is answered exactly when the right side
is a path that names it, and then the right side is the path in front of it; else the right side is
read as it is. No part of the text gets lost, and the path that is left names no further element. -/
theorem Compound.parse_sides (text : String) (pathExists : String → Bool) :
    (∀ fault, Compound.parse text pathExists = .error fault ↔
      splitCompound (withoutLead text) = .error fault) ∧
    ∀ left right, splitCompound (withoutLead text) = .ok (left, right) →
      ∃ compound, Compound.parse text pathExists = .ok compound ∧
        compound.left = Locator.parse left ∧
        (∀ element, compound.element = some element ↔ (Locator.parse right).isFile = true ∧
          ∃ path, NamesElement pathExists (Locator.parse right).resource path element) ∧
        (∀ path element, (Locator.parse right).isFile = true →
          NamesElement pathExists (Locator.parse right).resource path element →
          compound.right = ⟨fileScheme, path⟩) ∧
        (compound.element = none → compound.right = Locator.parse right) ∧
        (withoutLead text = left ++ ":" ++ right ∧ Spells left compound.left ∧
          Spells right compound.rejoined) ∧
        (compound.right.isFile = true →
          splitElement compound.right.resource pathExists = (compound.right.resource, none)) := by
  refine ⟨fun fault => ⟨fun refused => ?_, parse_of_error pathExists⟩, fun left right split => ?_⟩
  · cases split : splitCompound (withoutLead text) with
    | error fault' =>
      have same := (parse_of_error pathExists split).symm.trans refused
      rw [Except.error.inj same]
    | ok sides =>
      obtain ⟨left, right⟩ := sides
      obtain ⟨compound, read, -⟩ := exists_of_ok pathExists split
      exact nomatch read.symm.trans refused
  · obtain ⟨compound, read, sides⟩ := exists_of_ok pathExists split
    refine ⟨compound, read, sides.left_eq, sides.element_eq_some_iff,
      fun path element file named => sides.right_eq_of_named file named, sides.right_eq_of_none,
      ⟨eq_join_of_splitCompound split, ?_, ?_⟩, sides.splitElement_right⟩
    · rw [sides.left_eq]
      exact spells_parse left
    · rw [sides.rejoined_eq]
      exact spells_parse right

/-- A name behind a path that exists is an element only as long as nothing of that name exists. -/
example :
    Compound.parse "diff://a.py:lib/b.py/run" (· == "lib/b.py") =
        .ok ⟨⟨"file", "a.py"⟩, ⟨"file", "lib/b.py"⟩, some "run"⟩ ∧
      Compound.parse "diff://a.py:lib/b.py/run" (fun _ => true) =
        .ok ⟨⟨"file", "a.py"⟩, ⟨"file", "lib/b.py/run"⟩, none⟩ :=
  ⟨rfl, rfl⟩

end CodeDelta.Locator
