import CodeDelta.Failure
import CodeDelta.Locator.Revision
import CodeDelta.Proofs.Text.Split

/-!
# The two forms of a revision address

An address is spelled `path@revision` or, in a text without `@`, `revision/path` (`Spells`). A text
is read as an address exactly when it spells it (`parse_eq_ok_iff`). The last `@` and, where there
is none, the first slash leave one way to cut a text, so no text spells two addresses, although most
addresses are spelled by two texts.
-/

namespace CodeDelta.RevisionAddress

open Text

/-- How a text spells an address. -/
inductive Spells : String → RevisionAddress → Prop
  /-- The revision stands behind the last `@`; with nothing before it the address is that of the
  whole tree. -/
  | behind (path revision : String) (given : revision ≠ "") (last : '@' ∉ revision.toList) :
      Spells (path ++ "@" ++ revision) ⟨if path = "" then "." else path, revision⟩
  /-- The revision stands before the first slash of a text without `@`. -/
  | before (revision path : String) (given : revision ≠ "") (first : '/' ∉ revision.toList)
      (unmarked : '@' ∉ revision.toList) (named : path ≠ "") (unmarked' : '@' ∉ path.toList) :
      Spells (revision ++ "/" ++ path) ⟨path, revision⟩

/-- The characters of two texts around a mark. -/
theorem toList_append_mark (before after : String) (mark : Char) :
    (before ++ String.singleton mark ++ after).toList = before.toList ++ mark :: after.toList := by
  rw [String.toList_append, String.toList_append, List.append_assoc, String.toList_singleton,
    List.singleton_append]

/-- A text has no characters only when it is empty. -/
theorem isEmpty_toList_eq_false {text : String} (h : text ≠ "") : text.toList.isEmpty = false :=
  List.isEmpty_eq_false_iff.2 fun none_ => h (String.toList_eq_nil_iff.1 none_)

/-- A revision behind the last `@` is read with the path before it. -/
theorem parse_behind {revision : String} (given : revision ≠ "") (last : '@' ∉ revision.toList)
    (path : String) :
    parse (path ++ "@" ++ revision) = .ok ⟨if path = "" then "." else path, revision⟩ := by
  have cut : splitLast? '@' (path ++ "@" ++ revision).toList =
      some (path.toList, revision.toList) := by
    rw [show "@" = String.singleton '@' from rfl, toList_append_mark]
    exact splitLast?_append_cons last path.toList
  unfold parse
  rw [cut]
  simp only [isEmpty_toList_eq_false given, Bool.false_eq_true, if_false, String.ofList_toList]
  by_cases whole : path = ""
  · rw [whole]
    rfl
  · rw [isEmpty_toList_eq_false whole, if_neg whole, if_neg Bool.false_ne_true]

/-- A revision before the first slash is read with the path behind it when there is no `@`. -/
theorem parse_before {revision path : String} (given : revision ≠ "")
    (first : '/' ∉ revision.toList) (unmarked : '@' ∉ revision.toList) (named : path ≠ "")
    (unmarked' : '@' ∉ path.toList) : parse (revision ++ "/" ++ path) = .ok ⟨path, revision⟩ := by
  have text : (revision ++ "/" ++ path).toList = revision.toList ++ '/' :: path.toList :=
    toList_append_mark revision path '/'
  have none_ : splitLast? '@' (revision ++ "/" ++ path).toList = none := by
    rw [splitLast?_eq_none_iff, text, List.mem_append, List.mem_cons, not_or, not_or]
    exact ⟨unmarked, by decide, unmarked'⟩
  have cut : splitFirst? '/' (revision ++ "/" ++ path).toList =
      some (revision.toList, path.toList) := by
    rw [text]
    exact splitFirst?_append_cons first path.toList
  unfold parse
  rw [none_, cut]
  simp only [isEmpty_toList_eq_false given, isEmpty_toList_eq_false named, Bool.or_self,
    Bool.false_eq_true, if_false, String.ofList_toList]

/-- A text is put together from its parts around a mark. -/
theorem eq_append_mark {text : String} {before after : List Char} {mark : Char}
    (whole : text.toList = before ++ mark :: after) :
    text = String.ofList before ++ String.singleton mark ++ String.ofList after := by
  rw [← String.toList_inj, toList_append_mark, String.toList_ofList, String.toList_ofList, whole]

/-- A text of characters is not empty. -/
theorem ofList_ne_empty {chars : List Char} (h : ¬chars.isEmpty = true) :
    String.ofList chars ≠ "" :=
  fun empty => h (List.isEmpty_iff.2 (String.ofList_eq_empty_iff.1 empty))

/-- What is read of a text with an `@` is spelled with the revision behind the last one. -/
theorem spells_of_splitLast? {text : String} {path revision : List Char} {address : RevisionAddress}
    (marked : splitLast? '@' text.toList = some (path, revision)) (h : parse text = .ok address) :
    Spells text address := by
  obtain ⟨whole, last⟩ := eq_of_splitLast? marked
  unfold parse at h
  rw [marked] at h
  dsimp only at h
  split at h
  · cases h
  · next given =>
    have spelled := Spells.behind (String.ofList path) (String.ofList revision)
      (ofList_ne_empty given) (by rwa [String.toList_ofList])
    rw [eq_append_mark whole]
    split at h
    · next root =>
      rw [List.isEmpty_iff.1 root] at spelled ⊢
      rw [← Except.ok.inj h]
      exact spelled
    · next filled =>
      rw [if_neg (ofList_ne_empty filled)] at spelled
      rw [← Except.ok.inj h]
      exact spelled

/-- What is read of a text without `@` is spelled with the revision before the first slash. -/
theorem spells_of_splitLast?_eq_none {text : String} {address : RevisionAddress}
    (unmarked : splitLast? '@' text.toList = none) (h : parse text = .ok address) :
    Spells text address := by
  have absent := splitLast?_eq_none_iff.1 unmarked
  unfold parse at h
  rw [unmarked] at h
  dsimp only at h
  cases slashed : splitFirst? '/' text.toList with
  | none =>
    rw [slashed] at h
    cases h
  | some parts =>
    obtain ⟨revision, path⟩ := parts
    obtain ⟨whole, first⟩ := eq_of_splitFirst? slashed
    rw [whole, List.mem_append, List.mem_cons, not_or, not_or] at absent
    rw [slashed] at h
    dsimp only at h
    split at h
    · cases h
    · next filled =>
      rw [Bool.or_eq_true, not_or] at filled
      rw [eq_append_mark whole, ← Except.ok.inj h]
      exact .before _ _ (ofList_ne_empty filled.1) (by rwa [String.toList_ofList])
        (by rw [String.toList_ofList]; exact absent.1) (ofList_ne_empty filled.2)
        (by rw [String.toList_ofList]; exact absent.2.2)

/-- What is read of a text is spelled by it. -/
theorem spells_of_parse {text : String} {address : RevisionAddress}
    (h : parse text = .ok address) : Spells text address := by
  cases marked : splitLast? '@' text.toList with
  | some parts => exact spells_of_splitLast? marked h
  | none => exact spells_of_splitLast?_eq_none marked h

/-- A text is read as an address exactly when it spells it. -/
theorem parse_eq_ok_iff {text : String} {address : RevisionAddress} :
    parse text = .ok address ↔ Spells text address := by
  refine ⟨spells_of_parse, fun spelled => ?_⟩
  cases spelled with
  | behind path revision given last => exact parse_behind given last path
  | before revision path given first unmarked named unmarked' =>
    exact parse_before given first unmarked named unmarked'

/-- Neither part of an address that is spelled is empty. -/
theorem Spells.ne_empty {text : String} {address : RevisionAddress} (h : Spells text address) :
    address.path ≠ "" ∧ address.revision ≠ "" := by
  cases h with
  | behind path revision given last =>
    refine ⟨?_, given⟩
    dsimp only
    split
    · decide
    · assumption
  | before revision path given first unmarked named unmarked' => exact ⟨named, given⟩

/-- A path and a revision are read from either form, whatever marks and slashes stand in the path
behind which the revision is written; what is read is spelled in one of the two forms, with neither
part empty; and a text that spells no address is refused as a bad format. -/
theorem parse_forms :
    (∀ path revision : String, revision ≠ "" → '@' ∉ revision.toList →
      parse (path ++ "@" ++ revision) = .ok ⟨if path = "" then "." else path, revision⟩) ∧
    (∀ revision path : String, revision ≠ "" → '/' ∉ revision.toList → '@' ∉ revision.toList →
      path ≠ "" → '@' ∉ path.toList →
      parse (revision ++ "/" ++ path) = parse (path ++ "@" ++ revision)) ∧
    (∀ text address, parse text = .ok address →
      address.path ≠ "" ∧ address.revision ≠ "" ∧ Spells text address) ∧
    ∀ text, (∀ address, ¬Spells text address) →
      ∃ message, (parse text).mapError Failure.ofFault = .error (.format message) := by
  have behind : ∀ path revision : String, revision ≠ "" → '@' ∉ revision.toList →
      parse (path ++ "@" ++ revision) = .ok ⟨if path = "" then "." else path, revision⟩ :=
    fun path revision given last => parse_eq_ok_iff.2 (.behind path revision given last)
  refine ⟨behind, ?_, ?_, ?_⟩
  · intro revision path given first unmarked named unmarked'
    have before : parse (revision ++ "/" ++ path) = .ok ⟨path, revision⟩ :=
      parse_eq_ok_iff.2 (.before revision path given first unmarked named unmarked')
    rw [before, behind path revision given unmarked, if_neg named]
  · intro text address read
    have spelled := parse_eq_ok_iff.1 read
    exact ⟨spelled.ne_empty.1, spelled.ne_empty.2, spelled⟩
  · intro text unspelled
    cases read : parse text with
    | ok address => exact absurd (parse_eq_ok_iff.1 read) (unspelled address)
    | error fault => exact ⟨fault.message, rfl⟩

/-- A path with an `@` in it is never read from the older form. -/
example : parse "HEAD/icons@2x" = .ok ⟨"HEAD/icons", "2x"⟩ := rfl

end CodeDelta.RevisionAddress
