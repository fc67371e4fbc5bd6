import CodeDelta.Proofs.Diff.Records

/-!
# Structures that compare as equal

Two structures are alike when their comparison reports nothing (`Structure.Alike`). Category by
category this says that every element in force has a counterpart on the other side, of the same key
and with equal compared fields (`diffCategory_eq_nil_iff`). `Matches` is this relation of two lists.
It is reflexive and symmetric, and it is transitive for one way of taking keys, so structures are
told apart consistently as long as all of them tag files or none does.
-/

namespace CodeDelta

/-! ## Elements that agree -/

namespace Element.Agree

variable {category : Category} {a b c : Element}

/-- An element agrees with itself. -/
theorem refl (category : Category) (a : Element) : Agree category a a :=
  fun _ => ⟨⟨rfl, rfl, rfl, rfl⟩, fun _ => ⟨rfl, fun _ => Iff.rfl⟩⟩

/-- Agreement does not depend on the direction. -/
theorem symm (h : Agree category a b) : Agree category b a := by
  intro noImport
  obtain ⟨⟨signature, complexity, lineCount, line⟩, ofClass⟩ := h noImport
  refine ⟨⟨signature.symm, complexity.symm, lineCount.symm, line.symm⟩, fun isClass => ?_⟩
  obtain ⟨bases, methods⟩ := ofClass isClass
  exact ⟨bases.symm, fun name => (methods name).symm⟩

/-- Agreement is passed on. -/
theorem trans (h : Agree category a b) (h' : Agree category b c) : Agree category a c := by
  intro noImport
  obtain ⟨⟨signature, complexity, lineCount, line⟩, ofClass⟩ := h noImport
  obtain ⟨⟨signature', complexity', lineCount', line'⟩, ofClass'⟩ := h' noImport
  refine ⟨⟨signature.trans signature', complexity.trans complexity', lineCount.trans lineCount',
    line.trans line'⟩, fun isClass => ?_⟩
  obtain ⟨bases, methods⟩ := ofClass isClass
  obtain ⟨bases', methods'⟩ := ofClass' isClass
  exact ⟨bases.trans bases', fun name => (methods name).trans (methods' name)⟩

end Element.Agree

/-! ## Lists that match -/

/-- Every element of either list has a counterpart in the other one: an element of its key that
agrees with it. -/
structure Matches (key : Element → Key) (category : Category) (olds news : List Element) :
    Prop where
  /-- Old elements are kept. -/
  kept : ∀ old ∈ olds, ∃ new ∈ news, key old = key new ∧ Element.Agree category old new
  /-- New elements were there before. -/
  known : ∀ new ∈ news, ∃ old ∈ olds, key old = key new ∧ Element.Agree category old new

namespace Matches

variable {key : Element → Key} {category : Category} {as bs cs : List Element}

/-- A list matches itself. -/
theorem refl (key : Element → Key) (category : Category) (as : List Element) :
    Matches key category as as where
  kept a ha := ⟨a, ha, rfl, .refl category a⟩
  known a ha := ⟨a, ha, rfl, .refl category a⟩

/-- Lists match in both directions. -/
theorem symm (h : Matches key category as bs) : Matches key category bs as where
  kept b hb := by
    obtain ⟨a, ha, same, agree⟩ := h.known b hb
    exact ⟨a, ha, same.symm, agree.symm⟩
  known a ha := by
    obtain ⟨b, hb, same, agree⟩ := h.kept a ha
    exact ⟨b, hb, same.symm, agree.symm⟩

/-- A counterpart's counterpart is one. -/
theorem trans (h : Matches key category as bs) (h' : Matches key category bs cs) :
    Matches key category as cs where
  kept a ha := by
    obtain ⟨b, hb, same, agree⟩ := h.kept a ha
    obtain ⟨c, hc, same', agree'⟩ := h'.kept b hb
    exact ⟨c, hc, same.trans same', agree.trans agree'⟩
  known c hc := by
    obtain ⟨b, hb, same', agree'⟩ := h'.known c hc
    obtain ⟨a, ha, same, agree⟩ := h.known b hb
    exact ⟨a, ha, same.trans same', agree.trans agree'⟩

/-- Imports in force match when both sides have the same keys. -/
theorem importDecl (h : ∀ k, (∃ a ∈ as, key a = k) ↔ ∃ b ∈ bs, key b = k) :
    Matches key .importDecl (lastBy key as) (lastBy key bs) where
  kept a ha := by
    obtain ⟨b, hb, same⟩ := (exists_mem_lastBy key bs (key a)).2
      ((h (key a)).1 ⟨a, (lastBy_sublist key as).subset ha, rfl⟩)
    exact ⟨b, hb, same.symm, Element.agree_importDecl a b⟩
  known b hb := by
    obtain ⟨a, ha, same⟩ := (exists_mem_lastBy key as (key b)).2
      ((h (key b)).2 ⟨b, (lastBy_sublist key bs).subset hb, rfl⟩)
    exact ⟨a, ha, same, Element.agree_importDecl a b⟩

end Matches

/-- There are no records exactly when the lists match, provided that no key stands twice among the
new elements. -/
theorem recordsBy_eq_nil_iff {key : Element → Key} {category : Category}
    {olds news : List Element} (distinct : (news.map key).Nodup) :
    recordsBy key category olds news = [] ↔ Matches key category olds news := by
  rw [List.eq_nil_iff_forall_not_mem]
  simp only [mem_recordsBy, modifiedBy?_eq_some, find?_of_nodup_keys distinct,
    Element.compare_isEmpty_iff]
  constructor
  · intro absent
    have agree : ∀ old ∈ olds, ∀ new ∈ news, key new = key old →
        Element.Agree category old new := by
      intro old ho new hn same
      by_contra differs
      exact absent _ (Or.inr (Or.inr ⟨old, ho, new, ⟨hn, same⟩, differs, rfl⟩))
    refine ⟨fun old ho => ?_, fun new hn => ?_⟩
    · by_contra lost
      refine absent (.removed old) (Or.inr (Or.inl ⟨old, ho, fun new hn same => ?_, rfl⟩))
      exact lost ⟨new, hn, same.symm, agree old ho new hn same⟩
    · by_contra fresh
      refine absent (.added new) (Or.inl ⟨new, hn, fun old ho same => ?_, rfl⟩)
      exact fresh ⟨old, ho, same, agree old ho new hn same.symm⟩
  · rintro matched record (⟨new, hn, fresh, -⟩ | ⟨old, ho, lost, -⟩ |
      ⟨old, ho, new, ⟨hn, same⟩, differs, -⟩)
    · obtain ⟨old, ho, same, -⟩ := matched.known new hn
      exact fresh old ho same
    · obtain ⟨new, hn, same, -⟩ := matched.kept old ho
      exact lost new hn same.symm
    · -- The counterpart of the old element is the only new one of its key.
      obtain ⟨other, hother, same', agree⟩ := matched.kept old ho
      have one : other = new :=
        List.inj_on_of_nodup_map distinct hother hn (same'.symm.trans same.symm)
      rw [one] at agree
      exact differs agree

/-! ## Structures that compare as equal -/

/-- A comparison of the two structures reports nothing and counts nothing. -/
def Structure.Alike (left right : Structure) : Prop := left.diff right = ⟨.zero, ⟨[], [], []⟩⟩

instance (left right : Structure) : Decidable (left.Alike right) :=
  inferInstanceAs (Decidable (_ = _))

/-- A comparison without records counts nothing. -/
theorem diff_eq_of_detail_nil {left right : Structure}
    (h : ∀ category, (left.diff right).detail.get category = []) :
    left.diff right = ⟨.zero, ⟨[], [], []⟩⟩ := by
  have functions : (left.detailTo right).functions = [] := h .function
  have classes : (left.detailTo right).classes = [] := h .classDef
  have imports : (left.detailTo right).imports = [] := h .importDecl
  have detail : left.detailTo right = ⟨[], [], []⟩ := by
    calc left.detailTo right
      _ = ⟨(left.detailTo right).functions, (left.detailTo right).classes,
          (left.detailTo right).imports⟩ := rfl
      _ = ⟨[], [], []⟩ := by rw [functions, classes, imports]
  unfold Structure.diff
  rw [detail]
  rfl

namespace Structure

variable {a b c : Structure}

/-- Structures are alike when no category has a record. -/
theorem alike_iff_detail : a.Alike b ↔ ∀ category, (a.diff b).detail.get category = [] := by
  constructor
  · intro alike category
    rw [alike]
    cases category <;> rfl
  · exact diff_eq_of_detail_nil

/-- The elements in force of two structures match in every category. -/
def MatchesBy (key : Category → Element → Key) (a b : Structure) : Prop :=
  ∀ category, Matches (key category) category
    (lastBy (key category) (matchable category (a.elements category)))
    (lastBy (key category) (matchable category (b.elements category)))

/-- Structures are alike when their elements in force match. -/
theorem alike_iff_matchesBy : a.Alike b ↔ MatchesBy (keyBetween a b) a b := by
  rw [alike_iff_detail]
  refine forall_congr' fun category => ?_
  rw [get_detail_diff_eq, recordsBy_eq_nil_iff (nodup_keys_lastBy _ _)]

/-- Nothing changes from a structure to itself. -/
theorem Alike.refl (a : Structure) : a.Alike a :=
  alike_iff_matchesBy.2 fun _ => Matches.refl _ _ _

/-- Nothing changes in one direction when nothing changes in the other. -/
theorem Alike.symm (h : a.Alike b) : b.Alike a := by
  rw [alike_iff_matchesBy] at h ⊢
  rw [keyBetween_congr and_comm]
  exact fun category => (h category).symm

/-- Nothing changes over two steps without changes when the three structures are keyed alike. -/
theorem Alike.trans (tags : a.HasFileTag ∧ b.HasFileTag ↔ b.HasFileTag ∧ c.HasFileTag)
    (tags' : a.HasFileTag ∧ b.HasFileTag ↔ a.HasFileTag ∧ c.HasFileTag) (h : a.Alike b)
    (h' : b.Alike c) : a.Alike c := by
  rw [alike_iff_matchesBy] at h h' ⊢
  rw [← keyBetween_congr tags] at h'
  rw [← keyBetween_congr tags']
  exact fun category => (h category).trans (h' category)

end Structure

/-- To be alike is an equivalence: every structure is like itself, two structures are alike in both
directions or in none, and of three structures that all tag files, or of which none does, the first
is like the third when both are like the second. -/
theorem alike_equivalence (a b c : Structure) :
    a.Alike a ∧ (a.Alike b ↔ b.Alike a) ∧
    ((a.HasFileTag ∧ b.HasFileTag ∧ c.HasFileTag) ∨
        (¬a.HasFileTag ∧ ¬b.HasFileTag ∧ ¬c.HasFileTag) →
      a.Alike b → b.Alike c → a.Alike c) := by
  refine ⟨.refl a, ⟨.symm, .symm⟩, ?_⟩
  rintro (⟨ha, hb, hc⟩ | ⟨ha, hb, hc⟩) first second
  · exact .trans (by simp only [ha, hb, hc]) (by simp only [ha, hb, hc]) first second
  · exact .trans (by simp only [ha, hb, hc]) (by simp only [ha, hb, hc]) first second

/-- A tree of one file, with functions and a class that has these methods. -/
def Structure.ofOneFile (functions : List Element) (methods : List String) : Structure :=
  { blank with
    functions := functions.map (.inFile "a.py")
    classes := [{ Element.named "Store" with methods := methods.map .named, file := some "a.py" }] }

/-- A tree in which a function takes the place of an earlier one. -/
def Structure.sampleOverwritten : Structure :=
  ofOneFile [{ Element.named "run" with line := some 9 }, .named "run"] ["load", "save"]

/-- The tree without the earlier function, and with its methods in another order. -/
def Structure.sampleCleaned : Structure := ofOneFile [.named "run"] ["save", "load"]

/-- The tree with one more function, which has no name, and with a method that stands twice. -/
def Structure.sampleUnnamed : Structure :=
  ofOneFile [.named "run", .named ""] ["save", "load", "save"]

/-- The first tree is like the second and the second like the third, so the first is like the
third. -/
theorem alike_equivalence_samples :
    (Structure.sampleOverwritten.HasFileTag ∧ Structure.sampleCleaned.HasFileTag ∧
      Structure.sampleUnnamed.HasFileTag) ∧
    Structure.sampleOverwritten.Alike .sampleCleaned ∧
    Structure.sampleCleaned.Alike .sampleUnnamed ∧
    Structure.sampleOverwritten.Alike .sampleUnnamed := by
  have tags : Structure.sampleOverwritten.HasFileTag ∧ Structure.sampleCleaned.HasFileTag ∧
      Structure.sampleUnnamed.HasFileTag := by decide
  have first : Structure.sampleOverwritten.Alike .sampleCleaned := by decide
  have second : Structure.sampleCleaned.Alike .sampleUnnamed := by decide
  obtain ⟨-, -, both⟩ := alike_equivalence .sampleOverwritten .sampleCleaned .sampleUnnamed
  exact ⟨tags, first, second, both (Or.inl tags) first second⟩

/-- A function that names no file is like those of one name in two files, which are not alike. -/
example :
    ({ Structure.blank with functions := [(Element.named "run").inFile "a.py"] }).Alike
      { Structure.blank with functions := [.named "run"] } ∧
    ({ Structure.blank with functions := [.named "run"] }).Alike
      { Structure.blank with functions := [(Element.named "run").inFile "b.py"] } ∧
    ¬({ Structure.blank with functions := [(Element.named "run").inFile "a.py"] }).Alike
      { Structure.blank with functions := [(Element.named "run").inFile "b.py"] } := by
  decide

end CodeDelta
