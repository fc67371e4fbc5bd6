import CodeDelta.Diff.Structures
import Mathlib.Data.List.Nodup

/-!
# Elements in force

Of several elements with one key the last is in force. `lastBy` takes the last member of every key
from a list, for any key, and keeps their order. The index of a category lists the elements that
`lastBy` leaves, each with its key (`index_eq`).
-/

namespace CodeDelta

section LastBy

variable {α κ : Type} [DecidableEq κ]

/-- The last member of every key, in order. -/
def lastBy (key : α → κ) : List α → List α
  | [] => []
  | x :: rest => if ∃ y ∈ rest, key y = key x then lastBy key rest else x :: lastBy key rest

/-- Members stay in their order, and none is made up. -/
theorem lastBy_sublist (key : α → κ) (xs : List α) : (lastBy key xs).Sublist xs := by
  induction xs with
  | nil => exact List.Sublist.refl []
  | cons x rest ih =>
    unfold lastBy
    split_ifs
    · exact ih.cons x
    · exact ih.cons_cons x

/-- No key is lost. -/
theorem exists_mem_lastBy (key : α → κ) (xs : List α) (k : κ) :
    (∃ x ∈ lastBy key xs, key x = k) ↔ ∃ x ∈ xs, key x = k := by
  induction xs with
  | nil => rfl
  | cons x rest ih =>
    unfold lastBy
    split_ifs with later
    · rw [ih, List.exists_mem_cons_iff]
      constructor
      · exact Or.inr
      · rintro (rfl | found)
        · exact later
        · exact found
    · rw [List.exists_mem_cons_iff, List.exists_mem_cons_iff, ih]

/-- No key stands twice. -/
theorem nodup_keys_lastBy (key : α → κ) (xs : List α) : ((lastBy key xs).map key).Nodup := by
  induction xs with
  | nil => exact List.nodup_nil
  | cons x rest ih =>
    unfold lastBy
    split_ifs with later
    · exact ih
    · rw [List.map_cons, List.nodup_cons]
      refine ⟨fun hx => later ?_, ih⟩
      rw [← exists_mem_lastBy]
      exact List.mem_map.1 hx

/-- Where no key stands twice, every member is the last one of its key. -/
theorem lastBy_eq_self {key : α → κ} {xs : List α} (distinct : (xs.map key).Nodup) :
    lastBy key xs = xs := by
  induction xs with
  | nil => rfl
  | cons x rest ih =>
    rw [List.map_cons, List.nodup_cons, List.mem_map] at distinct
    unfold lastBy
    rw [if_neg distinct.1, ih distinct.2]

/-- Two members in force of one key are one. -/
theorem eq_of_mem_lastBy {key : α → κ} {xs : List α} {x y : α} (hx : x ∈ lastBy key xs)
    (hy : y ∈ lastBy key xs) (h : key x = key y) : x = y :=
  List.inj_on_of_nodup_map (nodup_keys_lastBy key xs) hx hy h

/-- Members of some keys can be singled out before or after. -/
theorem filter_lastBy (key : α → κ) (p : κ → Bool) (xs : List α) :
    (lastBy key xs).filter (fun x => p (key x)) = lastBy key (xs.filter fun x => p (key x)) := by
  induction xs with
  | nil => rfl
  | cons x rest ih =>
    by_cases hp : p (key x)
    · -- The members of `x`'s key all pass the test, so `x` is in force before as it is after.
      have same : (∃ y ∈ rest.filter fun x => p (key x), key y = key x) ↔
          ∃ y ∈ rest, key y = key x := by
        constructor
        · rintro ⟨y, hy, h⟩
          exact ⟨y, List.mem_of_mem_filter hy, h⟩
        · rintro ⟨y, hy, h⟩
          exact ⟨y, List.mem_filter.2 ⟨hy, by rw [h]; exact hp⟩, h⟩
      simp only [List.filter_cons, hp, if_true, lastBy, same]
      split_ifs
      · exact ih
      · simp only [List.filter_cons, hp, if_true, ih]
    · have hp' : p (key x) = false := Bool.eq_false_iff.2 hp
      simp only [List.filter_cons, hp', Bool.false_eq_true, if_false, lastBy]
      split_ifs
      · exact ih
      · simp only [List.filter_cons, hp', Bool.false_eq_true, if_false, ih]

/-- Where no key stands twice, a search for a key finds the member of that key, if there is one. -/
theorem find?_of_nodup_keys {key : α → κ} {xs : List α} (distinct : (xs.map key).Nodup) {k : κ}
    {x : α} : (xs.find? fun y => key y = k) = some x ↔ x ∈ xs ∧ key x = k := by
  constructor
  · intro found
    have hk := List.find?_some found
    exact ⟨List.mem_of_find?_eq_some found, of_decide_eq_true hk⟩
  · rintro ⟨hx, rfl⟩
    cases found : xs.find? fun y => key y = key x with
    | none =>
      have none_has := List.find?_eq_none.1 found x hx
      simp at none_has
    | some y =>
      have hk : key y = key x := by simpa using List.find?_some found
      rw [List.inj_on_of_nodup_map distinct (List.mem_of_find?_eq_some found) hx hk]

/-- A search for a key finds the member in force, if there is one. -/
theorem find?_lastBy {key : α → κ} {xs : List α} {k : κ} {x : α} :
    ((lastBy key xs).find? fun y => key y = k) = some x ↔ x ∈ lastBy key xs ∧ key x = k :=
  find?_of_nodup_keys (nodup_keys_lastBy key xs)

/-- Where no key stands twice, a look-up finds the entries of the list and no others. -/
theorem lookup_eq_some_iff_mem {entries : List (κ × α)} (distinct : (entries.map Prod.fst).Nodup)
    {k : κ} {x : α} : entries.lookup k = some x ↔ (k, x) ∈ entries := by
  constructor
  · intro found
    obtain ⟨before, after, rfl, -⟩ := List.lookup_eq_some_iff.1 found
    exact List.mem_append_right before List.mem_cons_self
  · intro hm
    cases found : entries.lookup k with
    | none =>
      have absent := List.lookup_eq_none_iff.1 found (k, x) hm
      simp at absent
    | some other =>
      obtain ⟨before, after, rfl, -⟩ := List.lookup_eq_some_iff.1 found
      have he : (k, other) ∈ before ++ (k, other) :: after :=
        List.mem_append_right before List.mem_cons_self
      have same := List.inj_on_of_nodup_map distinct hm he rfl
      rw [(Prod.mk.inj same).2]

/-- Only which keys are equal counts. -/
theorem lastBy_congr {key key' : α → κ} {xs : List α}
    (h : ∀ x ∈ xs, ∀ y ∈ xs, key x = key y ↔ key' x = key' y) :
    lastBy key xs = lastBy key' xs := by
  induction xs with
  | nil => rfl
  | cons x rest ih =>
    have tail := ih fun y hy z hz => h y (List.mem_cons_of_mem x hy) z (List.mem_cons_of_mem x hz)
    have same : (∃ y ∈ rest, key y = key x) ↔ ∃ y ∈ rest, key' y = key' x :=
      exists_congr fun y => and_congr_right fun hy =>
        h y (List.mem_cons_of_mem x hy) x List.mem_cons_self
    unfold lastBy
    simp only [same, tail]

end LastBy

/-! ## The index of a category -/

/-- A function and a class are identified by their names. -/
theorem identity_eq_name {category : Category} (noImport : category ≠ .importDecl)
    (element : Element) : element.identity category = element.name := by
  cases category with
  | importDecl => exact absurd rfl noImport
  | _ => rfl

/-- When files do not count, functions and classes have one key when they have one name. -/
theorem key_false_eq_iff {category : Category} (noImport : category ≠ .importDecl)
    {a b : Element} : a.key false category = b.key false category ↔ a.name = b.name := by
  unfold Element.key
  rw [identity_eq_name noImport, identity_eq_name noImport]
  simp

/-- The elements that can be matched. -/
def matchable (category : Category) (elements : List Element) : List Element :=
  elements.filter fun element => element.identity category != ""

/-- The elements in force. -/
def current (byFile : Bool) (category : Category) (elements : List Element) : List Element :=
  lastBy (Element.key byFile category) (matchable category elements)

/-- An element can be matched when its identity is not empty. -/
@[simp]
theorem mem_matchable {category : Category} {elements : List Element} {element : Element} :
    element ∈ matchable category elements ↔
      element ∈ elements ∧ element.identity category ≠ "" := by
  simp [matchable]

/-- A single element that can be matched is in force. -/
theorem current_singleton {category : Category} {element : Element} (byFile : Bool)
    (named : element.identity category ≠ "") : current byFile category [element] = [element] := by
  have kept : matchable category [element] = [element] := by simp [matchable, named]
  unfold current
  rw [kept]
  simp [lastBy]

/-- The index lists the elements in force, each with its key. -/
theorem index_eq (byFile : Bool) (category : Category) (elements : List Element) :
    index byFile category elements =
      (current byFile category elements).map fun element =>
        (element.key byFile category, element) := by
  unfold index keyed current matchable
  generalize (elements.filter fun element => element.identity category != "") = rest
  induction rest with
  | nil => rfl
  | cons element rest ih =>
    have same : ((rest.map fun element => (element.key byFile category, element)).any
        fun other => other.1 == element.key byFile category) = true ↔
        ∃ other ∈ rest, other.key byFile category = element.key byFile category := by
      simp
    rw [List.map_cons]
    unfold lastOccurrences lastBy
    simp only [same, ih]
    split_ifs <;> rfl

end CodeDelta
