import CodeDelta.Proofs.Diff.Fields
import CodeDelta.Proofs.Diff.Matching

/-!
# The records of a category

What a comparison reports is determined by the two lists of elements alone, without an index:
`Described` says it in terms of places. An element is in force at a place when it can be matched and
no element of its key stands behind it (`InForce`). The records are those of the elements in force
on the right that the left side lacks, those of the elements in force on the left that the right
side lacks, and those of the pairs in force whose compared fields differ, each part in the order of
the places. At most one list is so described (`Described.unique`), and the comparison gives it
(`described_get_detail_diff`).
-/

namespace CodeDelta

/-! ## Lists in the order of places -/

/-- The list holds the members that `P` gives for some place, in the order of the places. -/
def InOrder {α : Type} (P : ℕ → α → Prop) (xs : List α) : Prop :=
  ∃ placed : List (ℕ × α), placed.Pairwise (fun a b => a.1 < b.1) ∧
    (∀ place x, (place, x) ∈ placed ↔ P place x) ∧ placed.map Prod.snd = xs

namespace InOrder

variable {α β : Type} {P Q : ℕ → α → Prop} {xs ys : List α}

/-- Places and members determine the list. -/
theorem unique (hx : InOrder P xs) (hy : InOrder P ys) : xs = ys := by
  obtain ⟨as, sa, ma, rfl⟩ := hx
  obtain ⟨bs, sb, mb, rfl⟩ := hy
  have distinct : ∀ zs : List (ℕ × α), zs.Pairwise (fun a b => a.1 < b.1) → zs.Nodup := by
    intro zs sorted
    refine sorted.imp ?_
    rintro a b less rfl
    exact Nat.lt_irrefl _ less
  have members : as.Perm bs := by
    rw [List.perm_ext_iff_of_nodup (distinct as sa) (distinct bs sb)]
    rintro ⟨place, x⟩
    rw [ma, mb]
  have same : as = bs :=
    members.eq_of_pairwise (fun a b _ _ less more => absurd less (Nat.lt_asymm more)) sa sb
  rw [same]

/-- Equivalent descriptions describe the same lists. -/
theorem congr (h : ∀ place x, P place x ↔ Q place x) (hx : InOrder P xs) : InOrder Q xs := by
  obtain ⟨placed, sorted, members, rfl⟩ := hx
  exact ⟨placed, sorted, fun place x => (members place x).trans (h place x), rfl⟩

/-- A member of the list has a place. -/
theorem mem_iff (h : InOrder P xs) (x : α) : x ∈ xs ↔ ∃ place, P place x := by
  obtain ⟨placed, -, members, rfl⟩ := h
  rw [List.mem_map]
  constructor
  · rintro ⟨⟨place, y⟩, hy, rfl⟩
    exact ⟨place, (members place y).1 hy⟩
  · rintro ⟨place, hp⟩
    exact ⟨(place, x), (members place x).2 hp, rfl⟩

/-- What is made of the members keeps their places. -/
theorem filterMap (h : InOrder P xs) (f : α → Option β) :
    InOrder (fun place y => ∃ x, P place x ∧ f x = some y) (xs.filterMap f) := by
  obtain ⟨placed, sorted, members, rfl⟩ := h
  refine ⟨placed.filterMap fun entry => (f entry.2).map (entry.1, ·), ?_, ?_, ?_⟩
  · rw [List.pairwise_filterMap]
    refine sorted.imp ?_
    rintro ⟨i, x⟩ ⟨j, y⟩ less a ha b hb
    obtain ⟨_, -, rfl⟩ := Option.map_eq_some_iff.1 ha
    obtain ⟨_, -, rfl⟩ := Option.map_eq_some_iff.1 hb
    exact less
  · intro place y
    rw [List.mem_filterMap]
    constructor
    · rintro ⟨⟨i, x⟩, hx, he⟩
      obtain ⟨z, hz, same⟩ := Option.map_eq_some_iff.1 he
      obtain ⟨rfl, rfl⟩ := Prod.mk.inj same
      exact ⟨x, (members _ x).1 hx, hz⟩
    · rintro ⟨x, hx, hf⟩
      exact ⟨(place, x), (members place x).2 hx, by rw [hf]; rfl⟩
  · rw [List.map_filterMap, List.filterMap_map]
    refine List.filterMap_congr fun entry _ => ?_
    rw [Option.map_map]
    exact congrFun Option.map_id (f entry.2)

/-- What is made of the members that pass a test keeps their places. -/
theorem map_filter (h : InOrder P xs) (p : α → Bool) (f : α → β) :
    InOrder (fun place y => ∃ x, P place x ∧ p x = true ∧ y = f x) ((xs.filter p).map f) := by
  rw [← List.filterMap_eq_map, List.filterMap_filter]
  refine (h.filterMap _).congr fun place y => exists_congr fun x => and_congr_right fun _ => ?_
  cases p x with
  | true => simp [eq_comm]
  | false => simp

/-- The same members stand one place further on behind a new first one. -/
theorem shift (h : InOrder P xs) :
    InOrder (fun place x => ∃ before, place = before + 1 ∧ P before x) xs := by
  obtain ⟨placed, sorted, members, rfl⟩ := h
  refine ⟨placed.map fun entry => (entry.1 + 1, entry.2), ?_, ?_, ?_⟩
  · exact List.pairwise_map.2 (sorted.imp Nat.succ_lt_succ)
  · intro place x
    rw [List.mem_map]
    constructor
    · rintro ⟨⟨before, y⟩, hy, same⟩
      obtain ⟨rfl, rfl⟩ := Prod.mk.inj same
      exact ⟨before, rfl, (members before y).1 hy⟩
    · rintro ⟨before, rfl, hx⟩
      exact ⟨(before, x), (members before x).2 hx, rfl⟩
  · rw [List.map_map]
    rfl

/-- A first member stands at the first place. -/
theorem cons (h : InOrder P xs) (first : α) :
    InOrder (fun place x => place = 0 ∧ x = first ∨ ∃ before, place = before + 1 ∧ P before x)
      (first :: xs) := by
  obtain ⟨placed, sorted, members, listed⟩ := h.shift
  refine ⟨(0, first) :: placed, ?_, ?_, by rw [List.map_cons, listed]⟩
  · refine List.pairwise_cons.2 ⟨fun entry he => ?_, sorted⟩
    obtain ⟨before, same, -⟩ := (members entry.1 entry.2).1 he
    show 0 < entry.1
    omega
  · intro place x
    rw [List.mem_cons, members, Prod.mk.injEq]

end InOrder

/-! ## Elements in force -/

/-- The element stands at a place, it can be matched, and no element of its key stands behind it. -/
structure InForce (key : Element → Key) (elements : List Element) (place : ℕ)
    (element : Element) : Prop where
  /-- The element at the place. -/
  stands : elements[place]? = some element
  /-- Elements with an empty identity are never matched. -/
  matchable : (key element).identity ≠ ""
  /-- Of several elements with one key the last one counts. -/
  last : ∀ later other, place < later → elements[later]? = some other → key other ≠ key element

/-- In a list with a first element, that element is in force when it can be matched and no other
has its key, and the others are in force as they are without it. -/
theorem inForce_cons {key : Element → Key} {first element : Element} {rest : List Element}
    {place : ℕ} :
    InForce key (first :: rest) place element ↔
      (place = 0 ∧ element = first ∧ (key first).identity ≠ "" ∧
        ∀ other ∈ rest, key other ≠ key first) ∨
      ∃ before, place = before + 1 ∧ InForce key rest before element := by
  cases place with
  | zero =>
    constructor
    · rintro ⟨stands, matchable, last⟩
      obtain rfl : first = element := by simpa using stands
      refine Or.inl ⟨rfl, rfl, matchable, fun other ho => ?_⟩
      obtain ⟨place, at_place⟩ := List.mem_iff_getElem?.1 ho
      exact last (place + 1) other (by omega) (by simpa using at_place)
    · rintro (⟨-, rfl, matchable, last⟩ | ⟨before, same, -⟩)
      · refine ⟨rfl, matchable, fun later other less at_later => last other ?_⟩
        obtain ⟨later, rfl⟩ : ∃ n, later = n + 1 := ⟨later - 1, by omega⟩
        exact List.mem_of_getElem? (by simpa using at_later)
      · omega
  | succ before =>
    constructor
    · rintro ⟨stands, matchable, last⟩
      refine Or.inr ⟨before, rfl, by simpa using stands, matchable, fun later other less h => ?_⟩
      exact last (later + 1) other (by omega) (by simpa using h)
    · rintro (⟨same, -⟩ | ⟨place, same, stands, matchable, last⟩)
      · omega
      · obtain rfl : before = place := by omega
        refine ⟨by simpa using stands, matchable, fun later other less at_later => ?_⟩
        obtain ⟨later, rfl⟩ : ∃ n, later = n + 1 := ⟨later - 1, by omega⟩
        exact last later other (by omega) (by simpa using at_later)

/-- The last elements of all keys are those in force, in the order of their places. -/
theorem inOrder_lastBy (key : Element → Key) (elements : List Element) :
    InOrder (InForce key elements)
      (lastBy key (elements.filter fun element => (key element).identity != "")) := by
  induction elements with
  | nil =>
    refine ⟨[], List.Pairwise.nil, fun place x => ?_, rfl⟩
    exact ⟨fun h => absurd h List.not_mem_nil, fun h => absurd h.stands (by simp)⟩
  | cons first rest ih =>
    -- The first element either stays in front of what stays of the rest, or makes no difference.
    by_cases stays : (key first).identity ≠ "" ∧ ∀ other ∈ rest, key other ≠ key first
    · have alone : ¬∃ other ∈ rest.filter fun element => (key element).identity != "",
          key other = key first := by
        rintro ⟨other, ho, same⟩
        exact stays.2 other (List.mem_of_mem_filter ho) same
      rw [List.filter_cons_of_pos (by simpa using stays.1)]
      unfold lastBy
      rw [if_neg alone]
      refine (ih.cons first).congr fun place x => ?_
      rw [inForce_cons, and_iff_left stays]
    · have kept : lastBy key ((first :: rest).filter fun element => (key element).identity != "") =
          lastBy key (rest.filter fun element => (key element).identity != "") := by
        by_cases empty : (key first).identity = ""
        · rw [List.filter_cons_of_neg (by simpa using empty)]
        · -- An element that can be matched is dropped for a later one of its key, which can be too.
          have later : ∃ other ∈ rest.filter fun element => (key element).identity != "",
              key other = key first := by
            simp only [not_and, not_forall, not_not] at stays
            obtain ⟨other, ho, same⟩ := stays empty
            refine ⟨other, List.mem_filter.2 ⟨ho, ?_⟩, same⟩
            rw [same]
            simpa using empty
          rw [List.filter_cons_of_pos (by simpa using empty)]
          conv_lhs => unfold lastBy
          rw [if_pos later]
      rw [kept]
      refine ih.shift.congr fun place x => ?_
      rw [inForce_cons]
      constructor
      · exact Or.inr
      · rintro (⟨-, -, h⟩ | h)
        · exact absurd h stays
        · exact h

/-- An element in force of some key is the one that `lastBy` leaves of it. -/
theorem mem_lastBy_iff {key : Element → Key} {elements : List Element} {element : Element} :
    element ∈ lastBy key (elements.filter fun element => (key element).identity != "") ↔
      ∃ place, InForce key elements place element :=
  (inOrder_lastBy key elements).mem_iff element

/-- Two elements in force of one key are one. -/
theorem InForce.eq_of_key_eq {key : Element → Key} {elements : List Element} {a b : Element}
    {place other : ℕ} (ha : InForce key elements place a) (hb : InForce key elements other b)
    (h : key a = key b) : a = b :=
  eq_of_mem_lastBy (mem_lastBy_iff.2 ⟨place, ha⟩) (mem_lastBy_iff.2 ⟨other, hb⟩) h

/-- An element in force is an element. -/
theorem InForce.mem {key : Element → Key} {elements : List Element} {element : Element}
    {place : ℕ} (h : InForce key elements place element) : element ∈ elements :=
  List.mem_of_getElem? h.stands

/-- A key of an element that can be matched is in force when some element has it. -/
theorem exists_key_lastBy {key : Element → Key} {elements : List Element} {k : Key}
    (hk : k.identity ≠ "") :
    (∃ element ∈ lastBy key (elements.filter fun element => (key element).identity != ""),
      key element = k) ↔ ∃ element ∈ elements, key element = k := by
  rw [exists_mem_lastBy]
  constructor
  · rintro ⟨element, he, same⟩
    exact ⟨element, List.mem_of_mem_filter he, same⟩
  · rintro ⟨element, he, rfl⟩
    exact ⟨element, List.mem_filter.2 ⟨he, by simpa using hk⟩, rfl⟩

/-! ## What a comparison reports -/

/-- Some element of the structure names the file it came from. -/
def Structure.HasFileTag (structure_ : Structure) : Prop :=
  ∃ category, ∃ element ∈ structure_.elements category, element.file ≠ none

/-- The structure is found to be tagged when some element names its file. -/
theorem Structure.isFileTagged_iff (structure_ : Structure) :
    structure_.isFileTagged = true ↔ structure_.HasFileTag := by
  unfold isFileTagged HasFileTag
  simp only [List.any_eq_true, Option.isSome_iff_ne_none]
  constructor
  · rintro ⟨category, -, found⟩
    exact ⟨category, found⟩
  · rintro ⟨category, found⟩
    exact ⟨category, by cases category <;> decide, found⟩

instance (structure_ : Structure) : Decidable structure_.HasFileTag :=
  decidable_of_iff _ structure_.isFileTagged_iff

/-- Files do not count unless both structures tag some element. -/
theorem fileScoped_eq_false {left right : Structure}
    (h : ¬(left.HasFileTag ∧ right.HasFileTag)) : fileScoped left right = false := by
  unfold fileScoped
  rw [Bool.eq_false_iff, ne_eq, Bool.and_eq_true, Structure.isFileTagged_iff,
    Structure.isFileTagged_iff]
  exact h

section Described

variable (left right : Structure) (category : Category)

/-- What an element is matched by between two structures: the statement of an import or else its
name, and the name of any other element, with its file when both structures tag some element. -/
def keyBetween (element : Element) : Key where
  file :=
    if category ≠ .importDecl ∧ left.HasFileTag ∧ right.HasFileTag then element.file else none
  identity :=
    if category = .importDecl then element.content.getD element.name else element.name

/-- Elements are keyed by what they are matched by. -/
theorem key_fileScoped :
    Element.key (fileScoped left right) category = keyBetween left right category := by
  funext element
  have matters : (fileScoped left right && category != .importDecl) = true ↔
      category ≠ .importDecl ∧ left.HasFileTag ∧ right.HasFileTag := by
    unfold fileScoped
    rw [Bool.and_eq_true, Bool.and_eq_true, bne_iff_ne, Structure.isFileTagged_iff,
      Structure.isFileTagged_iff, and_comm]
  unfold Element.key keyBetween
  congr 1
  · simp only [matters]
  · cases category <;> rfl

/-- Keys depend on two structures only by whether both tag some element. -/
theorem keyBetween_congr {a b a' b' : Structure}
    (h : a.HasFileTag ∧ b.HasFileTag ↔ a'.HasFileTag ∧ b'.HasFileTag) :
    keyBetween a b = keyBetween a' b' := by
  funext category element
  unfold keyBetween
  simp only [h]

/-- An element in force on the right whose key no element on the left has. -/
def AddedAt (place : ℕ) (record : Record) : Prop :=
  ∃ element, InForce (keyBetween left right category) (right.elements category) place element ∧
    (∀ old ∈ left.elements category,
      keyBetween left right category old ≠ keyBetween left right category element) ∧
    record = .added element

/-- An element in force on the left whose key no element on the right has. -/
def RemovedAt (place : ℕ) (record : Record) : Prop :=
  ∃ element, InForce (keyBetween left right category) (left.elements category) place element ∧
    (∀ new ∈ right.elements category,
      keyBetween left right category new ≠ keyBetween left right category element) ∧
    record = .removed element

/-- An element in force on the left and one in force on the right of the same key that do not agree;
there are none among imports. -/
def ModifiedAt (place : ℕ) (record : Record) : Prop :=
  category ≠ .importDecl ∧
    ∃ old new, InForce (keyBetween left right category) (left.elements category) place old ∧
      (∃ newPlace,
        InForce (keyBetween left right category) (right.elements category) newPlace new) ∧
      keyBetween left right category new = keyBetween left right category old ∧
      ¬Element.Agree category old new ∧
      record = .modified new (old.compare category new)

/-- The records of a category: those added in the order of the right side, then those removed and
those modified, both in the order of the left side. -/
def Described (records : List Record) : Prop :=
  ∃ added removed modified, InOrder (AddedAt left right category) added ∧
    InOrder (RemovedAt left right category) removed ∧
    InOrder (ModifiedAt left right category) modified ∧
    records = added ++ removed ++ modified

/-- There is at most one list so described. -/
theorem Described.unique {records others : List Record}
    (h : Described left right category records) (h' : Described left right category others) :
    records = others := by
  obtain ⟨added, removed, modified, ha, hr, hm, rfl⟩ := h
  obtain ⟨added', removed', modified', ha', hr', hm', rfl⟩ := h'
  rw [ha.unique ha', hr.unique hr', hm.unique hm']

/-- The records of a category in the comparison of two structures. -/
theorem get_detail_diff :
    (left.diff right).detail.get category =
      diffCategory (fileScoped left right) category (left.elements category)
        (right.elements category) := by
  cases category <;> rfl

/-- The records of a category are those of the elements in force on both sides. -/
theorem get_detail_diff_eq :
    (left.diff right).detail.get category =
      recordsBy (keyBetween left right category) category
        (lastBy (keyBetween left right category) (matchable category (left.elements category)))
        (lastBy (keyBetween left right category)
          (matchable category (right.elements category))) := by
  rw [get_detail_diff, diffCategory_eq, current, current, key_fileScoped]

/-- A pair of imports agrees, as nothing of them is compared. -/
theorem Element.agree_importDecl (old new : Element) : Agree .importDecl old new :=
  fun h => absurd rfl h

/-- The comparison of two structures gives the records so described. -/
theorem described_get_detail_diff :
    Described left right category ((left.diff right).detail.get category) := by
  have identity : ∀ elements, matchable category elements =
      elements.filter fun element => (keyBetween left right category element).identity != "" := by
    rw [← key_fileScoped]
    exact fun elements => rfl
  rw [get_detail_diff_eq, identity, identity]
  generalize same : keyBetween left right category = key
  refine ⟨_, _, _, ?_, ?_, ?_, rfl⟩
  · refine ((inOrder_lastBy key (right.elements category)).map_filter _ _).congr
      fun place record => exists_congr fun element => ?_
    rw [same]
    refine and_congr_right fun inForce => and_congr_left fun _ => ?_
    rw [decide_eq_true_eq, exists_key_lastBy inForce.matchable, not_exists]
    simp only [not_and, ne_eq]
  · refine ((inOrder_lastBy key (left.elements category)).map_filter _ _).congr
      fun place record => exists_congr fun element => ?_
    rw [same]
    refine and_congr_right fun inForce => and_congr_left fun _ => ?_
    rw [decide_eq_true_eq, exists_key_lastBy inForce.matchable, not_exists]
    simp only [not_and, ne_eq]
  · refine ((inOrder_lastBy key (left.elements category)).filterMap _).congr
      fun place record => ?_
    simp only [ModifiedAt, same, modifiedBy?_eq_some, find?_lastBy, mem_lastBy_iff,
      Element.compare_isEmpty_iff]
    constructor
    · rintro ⟨old, ho, new, ⟨hn, hk⟩, differs, rfl⟩
      refine ⟨?_, old, new, ho, hn, hk, differs, rfl⟩
      rintro rfl
      exact differs (Element.agree_importDecl old new)
    · rintro ⟨-, old, new, ho, hn, hk, differs, rfl⟩
      exact ⟨old, ho, new, ⟨hn, hk⟩, differs, rfl⟩

/-- A key that is in force on both sides with elements that agree is the key of no record. -/
theorem Described.ne_key_of_agree {left right : Structure} {category : Category}
    {records : List Record} (h : Described left right category records) {old new : Element}
    {oldPlace newPlace : ℕ}
    (ho : InForce (keyBetween left right category) (left.elements category) oldPlace old)
    (hn : InForce (keyBetween left right category) (right.elements category) newPlace new)
    (hk : keyBetween left right category new = keyBetween left right category old)
    (agree : Element.Agree category old new) {record : Record} (hr : record ∈ records) :
    keyBetween left right category record.element ≠ keyBetween left right category old := by
  obtain ⟨added, removed, modified, ha, hd, hm, rfl⟩ := h
  intro same
  rw [List.mem_append, List.mem_append, ha.mem_iff, hd.mem_iff, hm.mem_iff] at hr
  obtain (⟨-, element, -, absent, rfl⟩ | ⟨-, element, -, absent, rfl⟩) |
    ⟨place, -, old', new', ho', ⟨newPlace', hn'⟩, hk', differs, rfl⟩ := hr
  · exact absent old ho.mem same.symm
  · exact absent new hn.mem (hk.trans same.symm)
  · -- The pair that the record is about is the pair that agrees.
    have hold : old' = old := ho'.eq_of_key_eq ho (hk'.symm.trans same)
    have hnew : new' = new := hn'.eq_of_key_eq hn (same.trans hk.symm)
    rw [hold, hnew] at differs
    exact differs agree

/-- The comparison of two structures reports the described list of records in every category, and
no other list is so described. No two records have one key, no import is modified, and a key that
both sides have with elements that agree has no record. -/
theorem detail_diff_iff_described :
    (∀ records, Described left right category records ↔
      (left.diff right).detail.get category = records) ∧
    (((left.diff right).detail.get category).map fun record =>
      keyBetween left right category record.element).Nodup ∧
    (category = .importDecl →
      ∀ record ∈ (left.diff right).detail.get category, record.kind ≠ .modified) ∧
    ∀ old new oldPlace newPlace,
      InForce (keyBetween left right category) (left.elements category) oldPlace old →
      InForce (keyBetween left right category) (right.elements category) newPlace new →
      keyBetween left right category new = keyBetween left right category old →
      Element.Agree category old new →
      ∀ record ∈ (left.diff right).detail.get category,
        keyBetween left right category record.element ≠ keyBetween left right category old := by
  have described := described_get_detail_diff left right category
  refine ⟨fun records => ⟨fun h => described.unique left right category h, ?_⟩, ?_, ?_, ?_⟩
  · rintro rfl
    exact described
  · rw [get_detail_diff_eq]
    exact nodup_keys_recordsBy category (nodup_keys_lastBy _ _) (nodup_keys_lastBy _ _)
  · rintro rfl record hr
    obtain ⟨added, removed, modified, ha, hd, hm, listed⟩ := described
    rw [listed, List.mem_append, List.mem_append, ha.mem_iff, hd.mem_iff, hm.mem_iff] at hr
    obtain (⟨-, element, -, -, rfl⟩ | ⟨-, element, -, -, rfl⟩) | ⟨-, noImport, -⟩ := hr
    · exact fun h => ChangeKind.noConfusion h
    · exact fun h => ChangeKind.noConfusion h
    · exact absurd rfl noImport
  · intro old new oldPlace newPlace ho hn hk agree record hr
    exact described.ne_key_of_agree ho hn hk agree hr

end Described

end CodeDelta
