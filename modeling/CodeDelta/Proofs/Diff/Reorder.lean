import CodeDelta.Proofs.Diff.Alike
import CodeDelta.Proofs.Diff.Wording

/-!
# The order of elements

As long as no two elements of a category have one key, every element is in force wherever it stands,
and the one of a key is found wherever it stands. Reordering the elements of both sides then
reorders the records of a comparison and changes nothing else (`perm_recordsBy`): the same elements
are added and removed, and the same pairs are modified with the same change maps. So the counts
stay, and a structure is like every reordering of itself.
-/

namespace CodeDelta

section Records

variable {key : Element → Key} {category : Category} {olds olds' news news' : List Element}

/-- Which elements are unmatched does not depend on the order of either list. -/
theorem perm_unmatchedBy {others others' elements elements' : List Element}
    (ho : others.Perm others') (he : elements.Perm elements') :
    (unmatchedBy key others elements).Perm (unmatchedBy key others' elements') := by
  unfold unmatchedBy
  simp only [ho.mem_iff]
  exact he.filter _

/-- Which new element an old one is paired with does not depend on the order of the new ones. -/
theorem modifiedBy?_of_perm (hn : news.Perm news') (distinct : (news.map key).Nodup)
    (old : Element) : modifiedBy? key category news old = modifiedBy? key category news' old := by
  have distinct' : (news'.map key).Nodup := (hn.map key).nodup distinct
  refine Option.ext fun record => ?_
  simp only [modifiedBy?_eq_some, find?_of_nodup_keys distinct, find?_of_nodup_keys distinct',
    hn.mem_iff]

/-- The records of reordered lists are the records reordered. -/
theorem perm_recordsBy (ho : olds.Perm olds') (hn : news.Perm news')
    (distinct : (news.map key).Nodup) :
    (recordsBy key category olds news).Perm (recordsBy key category olds' news') := by
  have modified : olds.filterMap (modifiedBy? key category news) =
      olds.filterMap (modifiedBy? key category news') :=
    List.filterMap_congr fun old _ => modifiedBy?_of_perm hn distinct old
  unfold recordsBy
  rw [modified]
  refine List.Perm.append (List.Perm.append ?_ ?_) (ho.filterMap _)
  · exact (perm_unmatchedBy ho hn).map _
  · exact (perm_unmatchedBy hn ho).map _

end Records

namespace Structure

variable {a b a' b' : Structure}

/-- Every category lists the same elements, perhaps in another order. -/
def Reorders (a b : Structure) : Prop :=
  ∀ category, (a.elements category).Perm (b.elements category)

/-- No two elements of a category that can be matched have one key. -/
def KeysApart (key : Category → Element → Key) (a : Structure) : Prop :=
  ∀ category, ((matchable category (a.elements category)).map (key category)).Nodup

/-- A reordered structure tags files as before. -/
theorem Reorders.hasFileTag_iff (h : a.Reorders b) : a.HasFileTag ↔ b.HasFileTag :=
  exists_congr fun category => exists_congr fun _ => and_congr_left fun _ => (h category).mem_iff

/-- The elements that can be matched are reordered with the others. -/
theorem Reorders.matchable (h : a.Reorders b) (category : Category) :
    (matchable category (a.elements category)).Perm (matchable category (b.elements category)) :=
  (h category).filter _

/-- Keys stay apart when elements are reordered. -/
theorem KeysApart.reorder {key : Category → Element → Key} (apart : a.KeysApart key)
    (h : a.Reorders b) : b.KeysApart key :=
  fun category => ((h.matchable category).map (key category)).nodup (apart category)

/-- Where keys are apart, the records of a category are those of the elements that can be
matched. -/
theorem get_detail_of_keysApart (ha : a.KeysApart (keyBetween a b))
    (hb : b.KeysApart (keyBetween a b)) (category : Category) :
    (a.diff b).detail.get category =
      recordsBy (keyBetween a b category) category
        (CodeDelta.matchable category (a.elements category))
        (CodeDelta.matchable category (b.elements category)) := by
  rw [get_detail_diff_eq, lastBy_eq_self (ha category), lastBy_eq_self (hb category)]

/-- Where keys are apart, the records of reordered structures are the records reordered. -/
theorem perm_get_detail (ha : a.KeysApart (keyBetween a b)) (hb : b.KeysApart (keyBetween a b))
    (as : a.Reorders a') (bs : b.Reorders b') (category : Category) :
    ((a'.diff b').detail.get category).Perm ((a.diff b).detail.get category) := by
  have keys : keyBetween a' b' = keyBetween a b :=
    keyBetween_congr (and_congr as.hasFileTag_iff.symm bs.hasFileTag_iff.symm)
  have ha' : a'.KeysApart (keyBetween a' b') := keys ▸ ha.reorder as
  have hb' : b'.KeysApart (keyBetween a' b') := keys ▸ hb.reorder bs
  rw [get_detail_of_keysApart ha hb, get_detail_of_keysApart ha' hb', keys]
  exact (perm_recordsBy (as.matchable category) (bs.matchable category) (hb category)).symm

/-- Where keys are apart, a structure is like every reordering of itself. -/
theorem Reorders.alike (h : a.Reorders b) (apart : a.KeysApart (keyBetween a b)) : a.Alike b := by
  have keys : keyBetween a a = keyBetween a b :=
    keyBetween_congr (and_congr_right fun _ => h.hasFileTag_iff)
  rw [← keys] at apart
  rw [alike_iff_detail]
  intro category
  have records := perm_get_detail apart apart (fun _ => List.Perm.refl _) h category
  rw [alike_iff_detail.1 (.refl a) category] at records
  exact records.eq_nil

end Structure

/-- Where no two elements of a category have one key, reordering the elements of both structures
leaves the summary of their comparison as it is and reorders its records. A structure whose keys are
apart is like every reordering of itself. -/
theorem diff_of_reorders {left right left' right' : Structure}
    (lefts : left.KeysApart (keyBetween left right))
    (rights : right.KeysApart (keyBetween left right)) (hl : left.Reorders left')
    (hr : right.Reorders right') :
    (left'.diff right').summary = (left.diff right).summary ∧
    (∀ category,
      ((left'.diff right').detail.get category).Perm ((left.diff right).detail.get category)) ∧
    (left.Reorders right → left.Alike right) := by
  have records := Structure.perm_get_detail lefts rights hl hr
  refine ⟨Summary.ext_get fun category kind => ?_, records, fun h => h.alike lefts⟩
  rw [get_summary_diff, get_summary_diff]
  exact ((records category).filter _).length_eq

/-- A structure with the elements of every category in the opposite order. -/
def Structure.reversed (structure_ : Structure) : Structure :=
  { structure_ with
    functions := structure_.functions.reverse
    classes := structure_.classes.reverse
    imports := structure_.imports.reverse }

/-- The opposite order is an order of the same elements. -/
theorem Structure.reorders_reversed (structure_ : Structure) :
    structure_.Reorders structure_.reversed := by
  intro category
  cases category <;> exact (List.reverse_perm _).symm

/-- A program of two functions and two imports, with an element that cannot be matched. -/
def Structure.sampleOrdered : Structure :=
  { blank with
    functions := [.named "load", { Element.named "run" with complexity := some 2 }, .named ""]
    imports := [.ofImport "use std::fs;" 1, .ofImport "use std::io;" 2] }

/-- The program later, with other branches in both functions and two new classes. -/
def Structure.sampleExtended : Structure :=
  { blank with
    functions :=
      [{ Element.named "load" with line := some 4 },
        { Element.named "run" with complexity := some 3 }]
    classes := [.named "Store", .named "Cache"]
    imports := [.ofImport "use std::io;" 1] }

/-- Both programs turned around have the records of the programs in another order, and the older
program turned around is like itself. -/
theorem diff_of_reorders_reversed :
    (Structure.sampleOrdered.reversed.diff Structure.sampleExtended.reversed).detail ≠
      (Structure.sampleOrdered.diff Structure.sampleExtended).detail ∧
    (Structure.sampleOrdered.reversed.diff Structure.sampleExtended.reversed).summary =
      (Structure.sampleOrdered.diff Structure.sampleExtended).summary ∧
    (∀ category,
      ((Structure.sampleOrdered.reversed.diff Structure.sampleExtended.reversed).detail.get
        category).Perm
      ((Structure.sampleOrdered.diff Structure.sampleExtended).detail.get category)) ∧
    Structure.sampleOrdered.Alike Structure.sampleOrdered.reversed := by
  have lefts : Structure.sampleOrdered.KeysApart
      (keyBetween .sampleOrdered .sampleExtended) := by
    intro category
    cases category <;> decide
  have rights : Structure.sampleExtended.KeysApart
      (keyBetween .sampleOrdered .sampleExtended) := by
    intro category
    cases category <;> decide
  have own : Structure.sampleOrdered.KeysApart
      (keyBetween .sampleOrdered Structure.sampleOrdered.reversed) := by
    intro category
    cases category <;> decide
  obtain ⟨summary, records, -⟩ := diff_of_reorders lefts rights
    (Structure.reorders_reversed _) (Structure.reorders_reversed _)
  obtain ⟨-, -, alike⟩ := diff_of_reorders own
    (own.reorder (Structure.reorders_reversed _)) (fun _ => List.Perm.refl _)
    (fun _ => List.Perm.refl _)
  exact ⟨by decide, summary, records, alike (Structure.reorders_reversed _)⟩

end CodeDelta
