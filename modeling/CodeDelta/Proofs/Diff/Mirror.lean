import CodeDelta.Diff.Elements
import CodeDelta.Proofs.Diff.Alike

/-!
# Comparisons in both directions

Exchanging the two sides of a comparison turns it around and changes nothing else. What one
direction adds the other removes, element for element and in the same order; the modified keys are
the same (`perm_modified_keys`), and each change map is the other's mirror (`changes_mirror`). Only
the order of the modified records can differ, as it follows the old side.

The comparison of a single name is turned around as well (`Structure.mirrors_diffElement`). Either
direction looks the name up on both sides in the same way and compares the fields of the same
category, so the outcome of the one is that of the other seen from the other side
(`ElementDiff.Mirrors`).
-/

namespace CodeDelta

/-- Keys do not depend on the direction. -/
theorem keyBetween_comm (a b : Structure) (category : Category) :
    keyBetween a b category = keyBetween b a category :=
  congrFun (keyBetween_congr and_comm) category

/-- A change map is empty from both sides or from none. -/
theorem FieldChanges.isEmpty_mirror (changes : FieldChanges) :
    changes.mirror.isEmpty = changes.isEmpty := by
  unfold isEmpty mirror
  rw [List.isEmpty_map]

section Pairs

variable {key : Element → Key} {category : Category} {lefts rights : List Element}

/-- A modified record tells of an old and a new element in force with one key, whose change map is
not empty. -/
theorem mem_modified_lastBy {record : Record} :
    record ∈ (lastBy key lefts).filterMap (modifiedBy? key category (lastBy key rights)) ↔
      ∃ old ∈ lastBy key lefts, ∃ new ∈ lastBy key rights, key new = key old ∧
        ¬(old.compare category new).isEmpty = true ∧
        record = .modified new (old.compare category new) := by
  rw [List.mem_filterMap]
  refine exists_congr fun old => and_congr_right fun _ => ?_
  simp only [modifiedBy?_eq_some, find?_lastBy, and_assoc]

/-- A key that is modified one way is modified the other way. -/
theorem exists_modified_comm {k : Key} :
    (∃ record ∈ (lastBy key lefts).filterMap (modifiedBy? key category (lastBy key rights)),
        key record.element = k) →
      ∃ record ∈ (lastBy key rights).filterMap (modifiedBy? key category (lastBy key lefts)),
        key record.element = k := by
  rintro ⟨record, hr, rfl⟩
  obtain ⟨old, ho, new, hn, hk, differs, rfl⟩ := mem_modified_lastBy.1 hr
  refine ⟨.modified old (new.compare category old), mem_modified_lastBy.2 ?_, hk.symm⟩
  refine ⟨new, hn, old, ho, hk.symm, ?_, rfl⟩
  rw [Element.compare_mirror, FieldChanges.isEmpty_mirror]
  exact differs

/-- No key is modified twice. -/
theorem nodup_modified_keys :
    (((lastBy key lefts).filterMap (modifiedBy? key category (lastBy key rights))).map
      fun record => key record.element).Nodup := by
  have all := nodup_keys_recordsBy category (nodup_keys_lastBy key lefts)
    (nodup_keys_lastBy key rights)
  have part : (lastBy key lefts).filterMap (modifiedBy? key category (lastBy key rights)) =
      ofKind .modified (recordsBy key category (lastBy key lefts) (lastBy key rights)) :=
    (ofKind_recordsBy key category _ _ .modified).symm
  rw [part]
  exact (List.filter_sublist.map _).nodup all

/-- The same keys are modified both ways. -/
theorem perm_modified_keys :
    (((lastBy key lefts).filterMap (modifiedBy? key category (lastBy key rights))).map
        fun record => key record.element).Perm
      (((lastBy key rights).filterMap (modifiedBy? key category (lastBy key lefts))).map
        fun record => key record.element) := by
  rw [List.perm_ext_iff_of_nodup nodup_modified_keys nodup_modified_keys]
  intro k
  rw [List.mem_map, List.mem_map]
  exact ⟨exists_modified_comm, exists_modified_comm⟩

/-- Two modified records of one key, one from each side, have mirrored change maps. -/
theorem changes_mirror {record back : Record}
    (hr : record ∈ (lastBy key lefts).filterMap (modifiedBy? key category (lastBy key rights)))
    (hb : back ∈ (lastBy key rights).filterMap (modifiedBy? key category (lastBy key lefts)))
    (same : key record.element = key back.element) :
    back.changes = record.changes.mirror := by
  obtain ⟨old, ho, new, hn, hk, -, rfl⟩ := mem_modified_lastBy.1 hr
  obtain ⟨old', ho', new', hn', hk', -, rfl⟩ := mem_modified_lastBy.1 hb
  have hnew : new = old' := eq_of_mem_lastBy hn ho' (same.trans hk')
  have hold : old = new' := eq_of_mem_lastBy ho hn' (hk.symm.trans same)
  subst hnew hold
  exact Element.compare_mirror category old new

end Pairs

/-- A comparison turned around adds what it removed and removes what it added, in the same order,
and modifies the same keys with mirrored change maps; so the counts of added and removed elements
are exchanged and that of modified elements stays. -/
theorem diff_mirror (a b : Structure) (category : Category) :
    (ofKind .added ((a.diff b).detail.get category)).map Record.element =
      (ofKind .removed ((b.diff a).detail.get category)).map Record.element ∧
    (ofKind .removed ((a.diff b).detail.get category)).map Record.element =
      (ofKind .added ((b.diff a).detail.get category)).map Record.element ∧
    ((ofKind .modified ((a.diff b).detail.get category)).map
      fun record => keyBetween a b category record.element).Perm
      ((ofKind .modified ((b.diff a).detail.get category)).map
        fun record => keyBetween b a category record.element) ∧
    (∀ record ∈ ofKind .modified ((a.diff b).detail.get category),
      ∀ back ∈ ofKind .modified ((b.diff a).detail.get category),
        keyBetween a b category record.element = keyBetween b a category back.element →
        back.changes = record.changes.mirror) ∧
    ((a.diff b).summary.get category).added = ((b.diff a).summary.get category).removed ∧
    ((a.diff b).summary.get category).removed = ((b.diff a).summary.get category).added ∧
    ((a.diff b).summary.get category).modified = ((b.diff a).summary.get category).modified := by
  have there := get_detail_diff_eq a b category
  have back := get_detail_diff_eq b a category
  have counts := get_summary_diff a b category
  have counts' := get_summary_diff b a category
  rw [keyBetween_comm b a] at back ⊢
  generalize keyBetween a b category = key at *
  generalize matchable category (a.elements category) = as at *
  generalize matchable category (b.elements category) = bs at *
  rw [there] at counts ⊢
  rw [back] at counts' ⊢
  simp only [ofKind_recordsBy, List.map_map] at counts counts' ⊢
  have added := counts .added
  have removed := counts .removed
  have modified := counts .modified
  have added' := counts' .added
  have removed' := counts' .removed
  have modified' := counts' .modified
  simp only [List.length_map] at added removed added' removed'
  refine ⟨rfl, rfl, perm_modified_keys, fun record hr back hb => changes_mirror hr hb, ?_, ?_, ?_⟩
  · exact added.trans removed'.symm
  · exact removed.trans added'.symm
  · have lengths := (@perm_modified_keys key category as bs).length_eq
    rw [List.length_map, List.length_map] at lengths
    exact (modified.trans lengths).trans modified'.symm

/-! ## One name -/

/-- A change seen from the other side of the other side. -/
theorem FieldChange.mirror_mirror (change : FieldChange) : change.mirror.mirror = change := by
  obtain ⟨old, new, delta, added, removed⟩ := change
  cases delta with
  | none => rfl
  | some n =>
    have back : some (- -n) = some n := congrArg some (Int.neg_neg n)
    exact congrArg (FieldChange.mk old new · added removed) back

/-- A change map seen from the other side of the other side. -/
theorem FieldChanges.mirror_mirror (changes : FieldChanges) : changes.mirror.mirror = changes := by
  refine ext_entries ?_
  unfold mirror
  dsimp only
  rw [List.map_map]
  refine (List.map_congr_left fun entry _ => ?_).trans (List.map_id _)
  exact congrArg (Prod.mk entry.1) entry.2.mirror_mirror

namespace ElementDiff

/-- The outcome of comparing a name, and the outcome of comparing it the other way round. -/
inductive Mirrors (name : String) : ElementDiff → ElementDiff → Prop
  /-- Neither side has the name. -/
  | notFound : Mirrors name (.notFound name) (.notFound name)
  /-- What is added one way is removed the other way. -/
  | added (element : Element) : Mirrors name (.added name element) (.removed name element)
  /-- What is removed one way is added the other way. -/
  | removed (element : Element) : Mirrors name (.removed name element) (.added name element)
  /-- Nothing changed; either outcome shows the element of its own new side. -/
  | unchanged (old new : Element) : Mirrors name (.unchanged name new) (.unchanged name old)
  /-- The same fields changed, with the two sides exchanged. -/
  | modified (old new : Element) (changes : FieldChanges) :
      Mirrors name (.modified name old new changes) (.modified name new old changes.mirror)

namespace Mirrors

variable {name : String} {diff back : ElementDiff} (h : Mirrors name diff back)
include h

/-- Both ways miss the name, or neither does. -/
theorem notFound_iff : diff = .notFound name ↔ back = .notFound name := by
  cases h <;> simp

/-- One way adds what the other one removes. -/
theorem added_iff (element : Element) :
    diff = .added name element ↔ back = .removed name element := by
  cases h <;> simp

/-- One way removes what the other one adds. -/
theorem removed_iff (element : Element) :
    diff = .removed name element ↔ back = .added name element := by
  cases h <;> simp

/-- Both ways see no change, or neither does. -/
theorem unchanged_iff :
    (∃ element, diff = .unchanged name element) ↔ ∃ element, back = .unchanged name element := by
  cases h <;> simp

/-- Both ways see a change, each the mirror of the other. -/
theorem modified_iff (old new : Element) (changes : FieldChanges) :
    diff = .modified name old new changes ↔ back = .modified name new old changes.mirror := by
  cases h with
  | modified old' new' changes' =>
    -- No two change maps have one mirror.
    have same : changes' = changes ↔ changes'.mirror = changes.mirror := by
      refine ⟨congrArg FieldChanges.mirror, fun h => ?_⟩
      rw [← changes'.mirror_mirror, h, changes.mirror_mirror]
    simp only [modified.injEq, true_and, same]
    tauto
  | _ => simp

end Mirrors

end ElementDiff

/-- The category whose fields are compared does not depend on the direction. -/
theorem Category.wider_comm (a b : Category) : a.wider b = b.wider a := by
  cases a <;> cases b <;> rfl

namespace Structure

/-- The comparison of a name is turned around with its sides. -/
theorem mirrors_diffElement (left right : Structure) (name : String) :
    ElementDiff.Mirrors name (left.diffElement right name) (right.diffElement left name) := by
  unfold diffElement
  cases left.find? name with
  | none =>
    cases right.find? name with
    | none => exact .notFound
    | some found => exact .added found.2
  | some found =>
    obtain ⟨category, old⟩ := found
    cases right.find? name with
    | none => exact .removed old
    | some found =>
      -- Either way the same fields are compared, also of a class with a function.
      obtain ⟨category', new⟩ := found
      dsimp only
      rw [Category.wider_comm category' category, Element.compare_mirror _ old new,
        FieldChanges.isEmpty_mirror]
      split_ifs
      · exact .unchanged old new
      · exact .modified old new _

/-- A name never differs from itself. -/
theorem diffElement_self (structure_ : Structure) (name : String) :
    structure_.diffElement structure_ name = .notFound name ∨
      ∃ element, structure_.diffElement structure_ name = .unchanged name element := by
  unfold diffElement
  cases structure_.find? name with
  | none => exact Or.inl rfl
  | some found =>
    obtain ⟨category, element⟩ := found
    refine Or.inr ⟨element, ?_⟩
    exact if_pos ((Element.compare_isEmpty_iff _ element element).2 (.refl _ element))

/-- The comparison of a name turned around finds it in the same cases; it removes what was added,
adds what was removed, and sees the same changes with their two sides exchanged. A structure
compared with itself shows no change of any name. -/
theorem diffElement_mirror (left right : Structure) (name : String) :
    (right.diffElement left name = .notFound name ↔
      left.diffElement right name = .notFound name) ∧
    (∀ element, right.diffElement left name = .removed name element ↔
      left.diffElement right name = .added name element) ∧
    (∀ element, right.diffElement left name = .added name element ↔
      left.diffElement right name = .removed name element) ∧
    ((∃ element, right.diffElement left name = .unchanged name element) ↔
      ∃ element, left.diffElement right name = .unchanged name element) ∧
    (∀ old new changes, right.diffElement left name = .modified name new old changes.mirror ↔
      left.diffElement right name = .modified name old new changes) ∧
    (left.diffElement left name = .notFound name ∨
      ∃ element, left.diffElement left name = .unchanged name element) := by
  have back := mirrors_diffElement left right name
  exact ⟨back.notFound_iff.symm, fun element => (back.added_iff element).symm,
    fun element => (back.removed_iff element).symm, back.unchanged_iff.symm,
    fun old new changes => (back.modified_iff old new changes).symm,
    diffElement_self left name⟩

/-- A class that has become a function is compared as a class, whichever side has the class. -/
example :
    let former : Structure :=
      { blank with classes := [{ Element.named "Store" with bases := ["Shelf"] }] }
    let latter : Structure := { blank with functions := [.named "Store"] }
    let changes :=
      FieldChanges.empty.insert "bases" (.ofValues (.ofStrings ["Shelf"]) (.ofStrings []))
    former.diffElement latter "Store" =
        .modified "Store" { Element.named "Store" with bases := ["Shelf"] } (.named "Store")
          changes ∧
      latter.diffElement former "Store" =
        .modified "Store" (.named "Store") { Element.named "Store" with bases := ["Shelf"] }
          changes.mirror := by
  decide

end Structure

end CodeDelta
