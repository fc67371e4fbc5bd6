import CodeDelta.Proofs.Diff.Keys

/-!
# Matching elements in force

The records of a category are those of two lists of elements in which no key stands twice
(`diffCategory_eq`). `recordsBy` makes them for any key and looks at keys only to tell whether two
are equal: `recordsBy_congr` lets another key take the place of one that tells the same elements
apart, and `filter_recordsBy` restricts a comparison to the keys that a test accepts. The records of
one kind are a part of the list (`ofKind_recordsBy`), which the counts of a summary are the lengths
of.
-/

namespace CodeDelta

section RecordsBy

variable (key : Element → Key) (category : Category)

/-- The elements whose key no other element has. -/
def unmatchedBy (others elements : List Element) : List Element :=
  elements.filter fun element => ¬∃ other ∈ others, key other = key element

/-- The record of an element and the one of its key among the new ones, when a field differs. -/
def modifiedBy? (news : List Element) (old : Element) : Option Record :=
  (news.find? fun new => key new = key old).bind fun new =>
    if (old.compare category new).isEmpty then none
    else some (.modified new (old.compare category new))

/-- The records of a category, from the elements in force on both sides. -/
def recordsBy (olds news : List Element) : List Record :=
  (unmatchedBy key olds news).map .added ++ (unmatchedBy key news olds).map .removed ++
    olds.filterMap (modifiedBy? key category news)

end RecordsBy

/-- A look-up among elements with their keys finds the first one of the key. -/
theorem lookup_map_key (key : Element → Key) (elements : List Element) (k : Key) :
    (elements.map fun element => (key element, element)).lookup k =
      elements.find? fun element => key element = k := by
  induction elements with
  | nil => rfl
  | cons element rest ih =>
    rw [List.map_cons, List.lookup_cons, List.find?_cons]
    by_cases h : key element = k
    · simp [h]
    · have h' : (k == key element) = false := by
        rw [beq_eq_false_iff_ne]
        exact fun e => h e.symm
      simp [h, h', ih]

/-- The records of a category are those of the elements in force. -/
theorem diffCategory_eq (byFile : Bool) (category : Category) (left right : List Element) :
    diffCategory byFile category left right =
      recordsBy (Element.key byFile category) category (current byFile category left)
        (current byFile category right) := by
  have filtered : ∀ entries others : List Element,
      unmatched (entries.map fun element => (element.key byFile category, element))
        (others.map fun element => (element.key byFile category, element)) =
      (unmatchedBy (Element.key byFile category) others entries).map fun element =>
        (element.key byFile category, element) := by
    intro entries others
    unfold unmatched unmatchedBy
    rw [List.filter_map]
    congr 1
    refine List.filter_congr fun element _ => ?_
    rw [Bool.eq_iff_iff]
    simp
  unfold diffCategory recordsBy
  simp only [index_eq, filtered, List.map_map, Function.comp_def, List.filterMap_map]
  congr 1
  refine List.filterMap_congr fun old _ => ?_
  simp only [modifiedRecord?, modifiedBy?, lookup_map_key]

/-- A modified record is told by the new elements of the old one's key. -/
theorem modifiedBy?_congr {key key' : Element → Key} {category : Category}
    {news news' : List Element} {old : Element}
    (h : (news.filter fun new => key new = key old) =
      news'.filter fun new => key' new = key' old) :
    modifiedBy? key category news old = modifiedBy? key' category news' old := by
  unfold modifiedBy?
  rw [← List.head?_filter, ← List.head?_filter, h]

/-- Only which keys are equal counts. -/
theorem recordsBy_congr {key key' : Element → Key} {category : Category}
    {olds news : List Element}
    (h : ∀ x ∈ olds ++ news, ∀ y ∈ olds ++ news, key x = key y ↔ key' x = key' y) :
    recordsBy key category olds news = recordsBy key' category olds news := by
  have hon : ∀ old ∈ olds, ∀ new ∈ news, (key new = key old ↔ key' new = key' old) :=
    fun old ho new hn =>
      h new (List.mem_append_right olds hn) old (List.mem_append_left news ho)
  have added : unmatchedBy key olds news = unmatchedBy key' olds news := by
    refine List.filter_congr fun new hn => ?_
    have : (∃ old ∈ olds, key old = key new) ↔ ∃ old ∈ olds, key' old = key' new :=
      exists_congr fun old => and_congr_right fun ho => by
        rw [eq_comm, hon old ho new hn, eq_comm]
    simp only [this]
  have removed : unmatchedBy key news olds = unmatchedBy key' news olds := by
    refine List.filter_congr fun old ho => ?_
    have : (∃ new ∈ news, key new = key old) ↔ ∃ new ∈ news, key' new = key' old :=
      exists_congr fun new => and_congr_right fun hn => hon old ho new hn
    simp only [this]
  have modified : olds.filterMap (modifiedBy? key category news) =
      olds.filterMap (modifiedBy? key' category news) := by
    refine List.filterMap_congr fun old ho => modifiedBy?_congr ?_
    exact List.filter_congr fun new hn => by simp only [hon old ho new hn]
  unfold recordsBy
  rw [added, removed, modified]

/-- A modified record carries the new element of the key, and some field differs. -/
theorem modifiedBy?_eq_some {key : Element → Key} {category : Category} {news : List Element}
    {old : Element} {record : Record} :
    modifiedBy? key category news old = some record ↔
      ∃ new, (news.find? fun new => key new = key old) = some new ∧
        ¬(old.compare category new).isEmpty = true ∧
        record = .modified new (old.compare category new) := by
  unfold modifiedBy?
  rw [Option.bind_eq_some_iff]
  refine exists_congr fun new => and_congr_right fun _ => ?_
  split_ifs with same
  · exact ⟨fun h => absurd h (by simp), fun h => absurd same h.1⟩
  · rw [Option.some_inj, and_iff_right same, eq_comm]

/-- The element of a modified record has the old element's key. -/
theorem key_of_modifiedBy? {key : Element → Key} {category : Category} {news : List Element}
    {old : Element} {record : Record} (h : modifiedBy? key category news old = some record) :
    key record.element = key old := by
  obtain ⟨new, found, -, rfl⟩ := modifiedBy?_eq_some.1 h
  have same := List.find?_some found
  exact of_decide_eq_true same

/-- The records are those of unmatched new elements, of unmatched old ones and of matched pairs. -/
theorem mem_recordsBy {key : Element → Key} {category : Category} {olds news : List Element}
    {record : Record} :
    record ∈ recordsBy key category olds news ↔
      (∃ new ∈ news, (∀ old ∈ olds, key old ≠ key new) ∧ Record.added new = record) ∨
      (∃ old ∈ olds, (∀ new ∈ news, key new ≠ key old) ∧ Record.removed old = record) ∨
      ∃ old ∈ olds, modifiedBy? key category news old = some record := by
  unfold recordsBy unmatchedBy
  simp only [List.mem_append, List.mem_map, List.mem_filter, List.mem_filterMap, or_assoc,
    decide_eq_true_eq, not_exists, not_and, and_assoc, ne_eq]

/-- No key has two records. -/
theorem nodup_keys_recordsBy {key : Element → Key} (category : Category)
    {olds news : List Element} (ho : (olds.map key).Nodup) (hn : (news.map key).Nodup) :
    ((recordsBy key category olds news).map fun record => key record.element).Nodup := by
  have modified : ((olds.filterMap (modifiedBy? key category news)).map
        fun record => key record.element) =
      (olds.filter fun old => (modifiedBy? key category news old).isSome).map key := by
    rw [List.map_filterMap, ← List.filterMap_eq_map, List.filterMap_filter]
    refine List.filterMap_congr fun old _ => ?_
    cases found : modifiedBy? key category news old with
    | none => rfl
    | some record => simp [key_of_modifiedBy? found]
  have added_key : ∀ new ∈ unmatchedBy key olds news, key new ∉ olds.map key := by
    intro new h
    simpa using (List.mem_filter.1 h).2
  have removed_key : ∀ old ∈ unmatchedBy key news olds, key old ∉ news.map key := by
    intro old h
    simpa using (List.mem_filter.1 h).2
  unfold recordsBy
  rw [List.map_append, List.map_append, modified, List.map_map, List.map_map]
  refine List.nodup_append.2 ⟨List.nodup_append.2 ⟨?_, ?_, ?_⟩, ?_, ?_⟩
  · exact (List.filter_sublist.map key).nodup hn
  · exact (List.filter_sublist.map key).nodup ho
  · -- An added key is not on the left, and a removed one is.
    rintro _ ha _ hb rfl
    obtain ⟨new, hnew, rfl⟩ := List.mem_map.1 ha
    obtain ⟨old, hold, same⟩ := List.mem_map.1 hb
    refine added_key new hnew ?_
    exact List.mem_map.2 ⟨old, List.mem_of_mem_filter hold, same⟩
  · exact (List.filter_sublist.map key).nodup ho
  · -- A modified key is on both sides.
    rintro _ ha _ hb rfl
    obtain ⟨old, hold, same⟩ := List.mem_map.1 hb
    obtain ⟨hold, found⟩ := List.mem_filter.1 hold
    obtain ⟨record, found⟩ := Option.isSome_iff_exists.1 found
    obtain ⟨new, hnew, -, -⟩ := modifiedBy?_eq_some.1 found
    have hk : key new = key old := by simpa using List.find?_some hnew
    rcases List.mem_append.1 ha with ha | ha
    · obtain ⟨other, hother, hsame⟩ := List.mem_map.1 ha
      refine added_key other hother ?_
      exact List.mem_map.2 ⟨old, hold, same.trans hsame.symm⟩
    · obtain ⟨other, hother, hsame⟩ := List.mem_map.1 ha
      refine removed_key other hother ?_
      exact List.mem_map.2 ⟨new, List.mem_of_find?_eq_some hnew, (hk.trans same).trans hsame.symm⟩

/-! ## Records by kind -/

/-- The records of a kind, in order. -/
def ofKind (kind : ChangeKind) (records : List Record) : List Record :=
  records.filter fun record => record.kind = kind

/-- Counting one more change raises the count of its kind. -/
theorem Counts.get_count (counts : Counts) (kind other : ChangeKind) :
    (counts.count other).get kind = counts.get kind + if other = kind then 1 else 0 := by
  cases kind <;> cases other <;> rfl

/-- The counts are the numbers of records of each kind. -/
theorem Counts.get_ofRecords (kind : ChangeKind) (records : List Record) :
    (Counts.ofRecords records).get kind = (ofKind kind records).length := by
  have from_counts : ∀ counts : Counts,
      (records.foldl (fun counts record => counts.count record.kind) counts).get kind =
        counts.get kind + (ofKind kind records).length := by
    induction records with
    | nil => exact fun counts => rfl
    | cons record rest ih =>
      intro counts
      unfold ofKind at ih ⊢
      rw [List.foldl_cons, ih, get_count, List.filter_cons]
      by_cases h : record.kind = kind
      · simp only [h, decide_true, if_true, List.length_cons]
        omega
      · simp only [h, decide_false, Bool.false_eq_true, if_false]
        omega
  have h := from_counts .zero
  have start : Counts.zero.get kind = 0 := by cases kind <;> rfl
  rw [start, Nat.zero_add] at h
  exact h

/-- The summary counts the records of every category and kind. -/
theorem get_summary_diff (left right : Structure) (category : Category) (kind : ChangeKind) :
    ((left.diff right).summary.get category).get kind =
      (ofKind kind ((left.diff right).detail.get category)).length := by
  rw [← Counts.get_ofRecords]
  cases category <;> rfl

/-- Records that are all of one kind are all of `kind`, or none is. -/
theorem ofKind_of_forall {kind other : ChangeKind} {records : List Record}
    (h : ∀ record ∈ records, record.kind = other) :
    ofKind kind records = if other = kind then records else [] := by
  unfold ofKind
  split_ifs with same
  · exact List.filter_eq_self.2 fun record hr => by rw [h record hr, decide_eq_true same]
  · exact List.filter_eq_nil_iff.2 fun record hr => by
      rw [h record hr, decide_eq_true_eq]
      exact same

/-- The records of every kind are one part of the records. -/
theorem ofKind_recordsBy (key : Element → Key) (category : Category) (olds news : List Element)
    (kind : ChangeKind) :
    ofKind kind (recordsBy key category olds news) =
      match kind with
      | .added => (unmatchedBy key olds news).map .added
      | .removed => (unmatchedBy key news olds).map .removed
      | .modified => olds.filterMap (modifiedBy? key category news) := by
  have added : ∀ record ∈ (unmatchedBy key olds news).map Record.added,
      record.kind = .added := by
    intro record h
    obtain ⟨element, -, rfl⟩ := List.mem_map.1 h
    rfl
  have removed : ∀ record ∈ (unmatchedBy key news olds).map Record.removed,
      record.kind = .removed := by
    intro record h
    obtain ⟨element, -, rfl⟩ := List.mem_map.1 h
    rfl
  have modified : ∀ record ∈ olds.filterMap (modifiedBy? key category news),
      record.kind = .modified := by
    intro record h
    obtain ⟨old, -, found⟩ := List.mem_filterMap.1 h
    obtain ⟨new, -, -, rfl⟩ := modifiedBy?_eq_some.1 found
    rfl
  have split : ofKind kind (recordsBy key category olds news) =
      ofKind kind ((unmatchedBy key olds news).map .added) ++
        ofKind kind ((unmatchedBy key news olds).map .removed) ++
        ofKind kind (olds.filterMap (modifiedBy? key category news)) := by
    unfold recordsBy ofKind
    rw [List.filter_append, List.filter_append]
  -- Of the three parts two have no record of the kind, and all records of the third are of it.
  rw [split, ofKind_of_forall added, ofKind_of_forall removed, ofKind_of_forall modified]
  cases kind <;> simp

/-! ## Restricting the keys -/

section Restricted

variable (key : Element → Key) (p : Key → Bool)

/-- The elements of accepted keys that no other element matches are those that no other element of
an accepted key matches. -/
theorem filter_unmatchedBy (others elements : List Element) :
    (unmatchedBy key others elements).filter (fun element => p (key element)) =
      unmatchedBy key (others.filter fun other => p (key other))
        (elements.filter fun element => p (key element)) := by
  unfold unmatchedBy
  rw [List.filter_filter, List.filter_filter]
  refine List.filter_congr fun element _ => ?_
  by_cases hp : p (key element)
  · -- Only elements of an accepted key can match an element of an accepted key.
    have same : (∃ other ∈ others.filter fun other => p (key other), key other = key element) ↔
        ∃ other ∈ others, key other = key element := by
      refine exists_congr fun other => ?_
      rw [List.mem_filter, and_assoc]
      refine and_congr_right fun _ => and_iff_right_of_imp fun h => ?_
      rw [h]
      exact hp
    simp only [same, hp, Bool.true_and, Bool.and_true]
  · simp [hp]

/-- The modified records of accepted keys are those of the elements of accepted keys. -/
theorem filter_filterMap_modifiedBy? (category : Category) (olds news : List Element) :
    (olds.filterMap (modifiedBy? key category news)).filter
        (fun record => p (key record.element)) =
      (olds.filter fun old => p (key old)).filterMap
        (modifiedBy? key category (news.filter fun new => p (key new))) := by
  rw [List.filter_filterMap, List.filterMap_filter]
  refine List.filterMap_congr fun old _ => ?_
  split_ifs with hp
  · have same : ((news.filter fun new => p (key new)).filter fun new => key new = key old) =
        news.filter fun new => key new = key old := by
      rw [List.filter_filter]
      refine List.filter_congr fun new _ => ?_
      by_cases h : key new = key old
      · simp [h, hp]
      · simp [h]
    rw [modifiedBy?_congr same]
    cases found : modifiedBy? key category news old with
    | none => rfl
    | some record => rw [Option.filter_some, key_of_modifiedBy? found, if_pos hp]
  · rw [Option.filter_eq_none_iff]
    intro record h
    rw [key_of_modifiedBy? h]
    exact hp

/-- The records of the keys that a test accepts are those of the elements of such keys. -/
theorem filter_recordsBy (category : Category) (olds news : List Element) :
    (recordsBy key category olds news).filter (fun record => p (key record.element)) =
      recordsBy key category (olds.filter fun old => p (key old))
        (news.filter fun new => p (key new)) := by
  unfold recordsBy
  rw [List.filter_append, List.filter_append, List.filter_map, List.filter_map,
    filter_filterMap_modifiedBy?, ← filter_unmatchedBy, ← filter_unmatchedBy]
  rfl

end Restricted

/-! ## The category's records again -/

section DiffCategory

variable {byFile : Bool} {category : Category} {left right : List Element}

/-- What is compared with nothing is added, one record for each element in force. -/
theorem diffCategory_nil_left :
    diffCategory byFile category [] right = (current byFile category right).map .added := by
  rw [diffCategory_eq]
  simp [current, matchable, lastBy, recordsBy, unmatchedBy]

/-- What nothing is compared with is removed, one record for each element in force. -/
theorem diffCategory_nil_right :
    diffCategory byFile category left [] = (current byFile category left).map .removed := by
  rw [diffCategory_eq]
  simp [current, matchable, lastBy, recordsBy, unmatchedBy, modifiedBy?]

/-- An element in force is an element. -/
theorem mem_of_mem_current {element : Element} {elements : List Element}
    (h : element ∈ current byFile category elements) : element ∈ elements :=
  (mem_matchable.1 ((lastBy_sublist _ _).subset h)).1

/-- A record carries an element of one of the two sides. -/
theorem mem_of_mem_diffCategory {record : Record}
    (h : record ∈ diffCategory byFile category left right) :
    record.element ∈ left ∨ record.element ∈ right := by
  rw [diffCategory_eq, mem_recordsBy] at h
  obtain ⟨new, hn, -, rfl⟩ | ⟨old, ho, -, rfl⟩ | ⟨old, -, found⟩ := h
  · exact Or.inr (mem_of_mem_current hn)
  · exact Or.inl (mem_of_mem_current ho)
  · obtain ⟨new, hn, -, rfl⟩ := modifiedBy?_eq_some.1 found
    exact Or.inr (mem_of_mem_current (List.mem_of_find?_eq_some hn))

/-- A record has no changed fields, or those of an old and a new element. -/
theorem changes_of_mem_diffCategory {record : Record}
    (h : record ∈ diffCategory byFile category left right) :
    record.changes = .empty ∨
      ∃ old ∈ left, ∃ new ∈ right, record.changes = old.compare category new := by
  rw [diffCategory_eq, mem_recordsBy] at h
  obtain ⟨new, -, -, rfl⟩ | ⟨old, -, -, rfl⟩ | ⟨old, ho, found⟩ := h
  · exact Or.inl rfl
  · exact Or.inl rfl
  · obtain ⟨new, hn, -, rfl⟩ := modifiedBy?_eq_some.1 found
    have new_mem := mem_of_mem_current (List.mem_of_find?_eq_some hn)
    exact Or.inr ⟨old, mem_of_mem_current ho, new, new_mem, rfl⟩

/-- No kind has more records than the longer side has elements. -/
theorem length_ofKind_diffCategory_le (kind : ChangeKind) :
    (ofKind kind (diffCategory byFile category left right)).length ≤
      max left.length right.length := by
  have current_le : ∀ elements : List Element,
      (current byFile category elements).length ≤ elements.length := fun elements =>
    Nat.le_trans (lastBy_sublist _ _).length_le (List.length_filter_le _ _)
  have unmatched_le : ∀ others elements : List Element,
      (unmatchedBy (Element.key byFile category) others elements).length ≤ elements.length :=
    fun others elements => List.length_filter_le _ _
  have olds := current_le left
  have news := current_le right
  rw [diffCategory_eq, ofKind_recordsBy]
  cases kind with
  | added =>
    have added := unmatched_le (current byFile category left) (current byFile category right)
    rw [List.length_map]
    omega
  | removed =>
    have removed := unmatched_le (current byFile category right) (current byFile category left)
    rw [List.length_map]
    omega
  | modified =>
    have modified := List.length_filterMap_le (modifiedBy? (Element.key byFile category) category
      (current byFile category right)) (current byFile category left)
    show (List.filterMap _ _).length ≤ _
    omega

/-- No import is modified, as nothing of two imports is compared. -/
theorem ofKind_modified_importDecl :
    ofKind .modified (diffCategory byFile .importDecl left right) = [] := by
  rw [diffCategory_eq, ofKind_recordsBy, List.filterMap_eq_nil_iff]
  intro old _
  rw [Option.eq_none_iff_forall_ne_some]
  intro record found
  obtain ⟨new, -, differs, -⟩ := modifiedBy?_eq_some.1 found
  exact differs rfl

/-- Whether files count does not matter when the keys with and without them tell the same elements
apart. -/
theorem diffCategory_congr {byFile' : Bool}
    (h : ∀ x ∈ left ++ right, ∀ y ∈ left ++ right,
      x.key byFile category = y.key byFile category ↔
        x.key byFile' category = y.key byFile' category) :
    diffCategory byFile category left right = diffCategory byFile' category left right := by
  have side : ∀ elements : List Element, (∀ x ∈ elements, x ∈ left ++ right) →
      current byFile category elements = current byFile' category elements := by
    intro elements sub
    refine lastBy_congr fun x hx y hy => h x (sub x ?_) y (sub y ?_)
    · exact (mem_matchable.1 hx).1
    · exact (mem_matchable.1 hy).1
  rw [diffCategory_eq, diffCategory_eq,
    side left fun x hx => List.mem_append_left right hx,
    side right fun x hx => List.mem_append_right left hx]
  refine recordsBy_congr fun x hx y hy => h x ?_ y ?_
  · exact (List.mem_append.1 hx).elim (fun hx => List.mem_append_left right (mem_of_mem_current hx))
      fun hx => List.mem_append_right left (mem_of_mem_current hx)
  · exact (List.mem_append.1 hy).elim (fun hy => List.mem_append_left right (mem_of_mem_current hy))
      fun hy => List.mem_append_right left (mem_of_mem_current hy)

/-- The records of the keys that a test accepts are those of the elements of such keys. -/
theorem filter_diffCategory (byFile : Bool) (category : Category) (left right : List Element)
    (p : Key → Bool) :
    (diffCategory byFile category left right).filter
        (fun record => p (record.element.key byFile category)) =
      diffCategory byFile category
        (left.filter fun element => p (element.key byFile category))
        (right.filter fun element => p (element.key byFile category)) := by
  have side : ∀ elements : List Element,
      (current byFile category elements).filter (fun element => p (element.key byFile category)) =
        current byFile category
          (elements.filter fun element => p (element.key byFile category)) := by
    intro elements
    unfold current matchable
    rw [filter_lastBy, List.filter_filter, List.filter_filter]
    simp only [Bool.and_comm]
  rw [diffCategory_eq, diffCategory_eq, filter_recordsBy, side, side]

end DiffCategory

end CodeDelta
