import CodeDelta.Diff.Fields
import Mathlib.Data.Int.Notation
import Mathlib.Data.List.Basic

/-!
# The change map of two elements

`compare_isEmpty_iff` says when two matched elements count as equal: no compared field tells them
apart (`Element.Agree`). `compare_mirror` says that the change map seen from the other side is the
change map with the two sides exchanged (`FieldChanges.mirror`): every field that changed one way
changed the other way, with its old and new value swapped and its difference negated. Methods are
counted without a bound; `methodsChange_eq_counted` names the one below which counters of 32 bits
tell the same (`Element.FewMethods`).

Both follow the way a change map is built, one field after another by `note`, so each field adds
one rewriting step and nothing else.
-/

namespace CodeDelta

/-! ## When no field changed -/

/-- Setting a member leaves a list with at least that member. -/
theorem Json.isEmpty_insertMember {α : Type} (name : String) (value : α)
    (members : List (String × α)) : (insertMember name value members).isEmpty = false := by
  cases members with
  | nil => rfl
  | cons member rest =>
    simp only [insertMember]
    split_ifs <;> rfl

/-- Setting a change leaves a map with at least that change. -/
theorem FieldChanges.isEmpty_insert (changes : FieldChanges) (name : String)
    (change : FieldChange) : (changes.insert name change).isEmpty = false :=
  Json.isEmpty_insertMember name change changes.entries

/-- A field is noted unless its two values are equal. -/
theorem FieldChanges.isEmpty_note {α : Type} [DecidableEq α] (changes : FieldChanges)
    (name : String) (describe : α → α → FieldChange) (old new : α) :
    (changes.note name describe old new).isEmpty = true ↔
      changes.isEmpty = true ∧ old = new := by
  unfold note
  split_ifs with same
  · exact (and_iff_left same).symm
  · rw [isEmpty_insert]
    exact ⟨fun h => absurd h Bool.false_ne_true, fun h => absurd h.2 same⟩

/-- Two lists hold the same names when every name stands in both or in none. -/
theorem Element.sameNames_iff (a b : List String) :
    sameNames a b = true ↔ ∀ name, name ∈ a ↔ name ∈ b := by
  unfold sameNames
  rw [Bool.and_eq_true, List.all_eq_true, List.all_eq_true]
  simp only [List.contains_iff_mem]
  constructor
  · exact fun h name => ⟨h.1 name, h.2 name⟩
  · exact fun h => ⟨fun name => (h name).1, fun name => (h name).2⟩

/-- No field that the category compares tells two elements apart: signature, complexity, number of
lines and first line of functions and classes, and of classes the bases in order and the set of the
methods' names. -/
def Element.Agree (category : Category) (a b : Element) : Prop :=
  category ≠ .importDecl →
    (a.signature = b.signature ∧ a.complexity = b.complexity ∧ a.lineCount = b.lineCount ∧
      a.line = b.line) ∧
    (category = .classDef →
      a.bases = b.bases ∧ ∀ name, name ∈ a.methodNames ↔ name ∈ b.methodNames)

/-- The fields common to functions and classes are unchanged when they are equal. -/
theorem Element.commonChanges_isEmpty_iff (old new : Element) :
    (commonChanges old new).isEmpty = true ↔
      old.signature = new.signature ∧ old.complexity = new.complexity ∧
        old.lineCount = new.lineCount ∧ old.line = new.line := by
  unfold commonChanges
  rw [FieldChanges.isEmpty_note, FieldChanges.isEmpty_note, FieldChanges.isEmpty_note,
    FieldChanges.isEmpty_note, and_assoc, and_assoc, and_assoc]
  exact and_iff_right rfl

/-- The change map is empty exactly when the compared fields agree. -/
theorem Element.compare_isEmpty_iff (category : Category) (old new : Element) :
    (old.compare category new).isEmpty = true ↔ Agree category old new := by
  cases category with
  | function =>
    have h := commonChanges_isEmpty_iff old new
    simpa [compare, Agree] using h
  | classDef =>
    have common := commonChanges_isEmpty_iff old new
    have names := sameNames_iff old.methodNames new.methodNames
    simp only [compare, classChanges, Agree, ne_eq, reduceCtorEq, not_false_eq_true,
      forall_const, ← common, ← names]
    split_ifs with same
    · rw [FieldChanges.isEmpty_note, and_iff_left same]
    · rw [FieldChanges.isEmpty_insert]
      exact ⟨fun h => absurd h Bool.false_ne_true, fun h => absurd h.2.2 same⟩
  | importDecl =>
    simp [compare, Agree, FieldChanges.isEmpty, FieldChanges.empty]

/-! ## The two sides exchanged -/

/-- A change seen from the other side. -/
def FieldChange.mirror (change : FieldChange) : FieldChange where
  old := change.new
  new := change.old
  delta := change.delta.map Neg.neg
  added := change.removed
  removed := change.added

/-- Setting a member and applying a function to the values can be exchanged. -/
theorem Json.map_insertMember {α β : Type} (f : α → β) (name : String) (value : α)
    (members : List (String × α)) :
    (insertMember name value members).map (fun member => (member.1, f member.2)) =
      insertMember name (f value) (members.map fun member => (member.1, f member.2)) := by
  induction members with
  | nil => rfl
  | cons member rest ih =>
    simp only [insertMember, List.map_cons]
    split_ifs
    · rfl
    · rfl
    · rw [List.map_cons, ih]

namespace FieldChanges

/-- A change map seen from the other side: the same fields, each change mirrored. -/
def mirror (changes : FieldChanges) : FieldChanges where
  entries := changes.entries.map fun entry => (entry.1, entry.2.mirror)
  ascending := by
    have h := changes.ascending
    unfold Json.Ascending at h ⊢
    rw [List.pairwise_map]
    exact h

/-- Change maps are equal when they list the same changes. -/
theorem ext_entries {a b : FieldChanges} (h : a.entries = b.entries) : a = b := by
  cases a
  cases b
  cases h
  rfl

/-- The other side sees every change that is set. -/
theorem mirror_insert (changes : FieldChanges) (name : String) (change : FieldChange) :
    (changes.insert name change).mirror = changes.mirror.insert name change.mirror :=
  ext_entries (Json.map_insertMember FieldChange.mirror name change changes.entries)

/-- The other side sees every field that is noted, provided that it describes the change as the
mirrored one. -/
theorem mirror_note {α : Type} [DecidableEq α] (changes : FieldChanges) (name : String)
    (describe : α → α → FieldChange) (old new : α)
    (h : describe new old = (describe old new).mirror) :
    (changes.note name describe old new).mirror = changes.mirror.note name describe new old := by
  unfold note
  by_cases same : old = new
  · rw [if_pos same, if_pos same.symm]
  · rw [if_neg same, if_neg fun e => same e.symm, mirror_insert, h]

end FieldChanges

/-- A change of a number is mirrored with its difference negated. -/
theorem FieldChange.ofNumbers_mirror (old new : Option ℕ) :
    ofNumbers new old = (ofNumbers old new).mirror := by
  cases old with
  | none => cases new <;> rfl
  | some m =>
    cases new with
    | none => rfl
    | some n =>
      have negated : (m : ℤ) - n = -((n : ℤ) - m) := by omega
      simp only [ofNumbers, mirror, ofValues, Option.map_some, negated]

namespace Element

/-- A change of the methods is mirrored, the names of either side exchanged. -/
theorem methodsChange_mirror (old new : Element) :
    methodsChange new old = (methodsChange old new).mirror := by
  unfold methodsChange
  rw [FieldChange.ofNumbers_mirror]
  rfl

/-- An element with fewer than `2 ^ 32` methods, as those methods have in their turn. -/
inductive FewMethods : Element → Prop
  | mk {element : Element} (count : element.methods.length < Nat.pow 2 32)
      (methods : ∀ method ∈ element.methods, FewMethods method) : FewMethods element

/-- A counter of 32 bits holds the number of few methods. -/
theorem FewMethods.toNat_length {element : Element} (few : element.FewMethods) :
    (UInt32.ofNat element.methods.length).toNat = element.methods.length := by
  obtain ⟨count, -⟩ := few
  exact UInt32.toNat_ofNat_of_lt' count

/-- Of elements with few methods the change tells what counters of 32 bits hold. -/
theorem methodsChange_eq_counted {old new : Element} (fewOld : old.FewMethods)
    (fewNew : new.FewMethods) :
    methodsChange old new =
      { FieldChange.ofNumbers (some (UInt32.ofNat old.methods.length).toNat)
          (some (UInt32.ofNat new.methods.length).toNat) with
        added := namesBeyond old.methodNames [] new.methodNames
        removed := namesBeyond new.methodNames [] old.methodNames } := by
  rw [fewOld.toNat_length, fewNew.toNat_length]
  rfl

/-- The common fields are compared the same way from both sides. -/
theorem commonChanges_mirror (old new : Element) :
    commonChanges new old = (commonChanges old new).mirror := by
  unfold commonChanges
  rw [FieldChanges.mirror_note _ _ _ _ _ (FieldChange.ofNumbers_mirror _ _),
    FieldChanges.mirror_note _ _ _ _ _ (FieldChange.ofNumbers_mirror _ _),
    FieldChanges.mirror_note _ _ _ _ _ (FieldChange.ofNumbers_mirror _ _),
    FieldChanges.mirror_note _ _ textChange _ _ rfl]
  rfl

/-- Elements are compared the same way from both sides. -/
theorem compare_mirror (category : Category) (old new : Element) :
    new.compare category old = (old.compare category new).mirror := by
  cases category with
  | function => exact commonChanges_mirror old new
  | importDecl => rfl
  | classDef =>
    have names : sameNames new.methodNames old.methodNames =
        sameNames old.methodNames new.methodNames := Bool.and_comm _ _
    have bases : (commonChanges new old).note "bases" listChange new.bases old.bases =
        ((commonChanges old new).note "bases" listChange old.bases new.bases).mirror := by
      rw [FieldChanges.mirror_note _ _ listChange _ _ rfl, commonChanges_mirror]
    simp only [compare, classChanges, names, bases]
    split_ifs
    · rfl
    · rw [FieldChanges.mirror_insert, methodsChange_mirror]

end Element

end CodeDelta
