import Mathlib.Data.List.Basic

/-!
# Names in the order of their first appearance

The library's `List.eraseDups` keeps the first of equal names. Lists of names are built in two other
ways: by going through them with the names already seen at hand, and by adding each name at the end
of a list unless it is there. Either way the first name that is new comes next, and all later ones
must differ from it as from those before (`eraseDups_filter_cons`); the names that are added are
therefore the new ones, each once, in the order of their first appearance (`foldl_append_new`), and
the list is that of all first appearances when it began without repeats (`eraseDups_append_new`).
-/

namespace CodeDelta.Text

/-- Of a list without some names, the first one stands first, and then follow the others. -/
theorem eraseDups_filter_cons {name : String} {names : List String} (new : name ∉ names)
    (rest : List String) :
    ((name :: rest).filter fun other => other ∉ names).eraseDups =
      name :: (rest.filter fun other => other ∉ name :: names).eraseDups := by
  rw [List.filter_cons, if_pos (decide_eq_true new), List.eraseDups_cons, List.filter_filter]
  congr 2
  refine List.filter_congr fun other _ => ?_
  rw [Bool.eq_iff_iff]
  simp

/-- Names that are not there yet are added once each, in the order of their first appearance. -/
theorem foldl_append_new (names more : List String) :
    more.foldl (fun names name => if name ∈ names then names else names ++ [name]) names =
      names ++ (more.filter fun name => name ∉ names).eraseDups := by
  induction more generalizing names with
  | nil => exact (List.append_nil names).symm
  | cons name rest ih =>
    rw [List.foldl_cons, ih]
    by_cases known : name ∈ names
    · have passed : ¬decide (name ∉ names) = true := fun h => of_decide_eq_true h known
      rw [if_pos known, List.filter_cons, if_neg passed]
    · -- The name goes to the end, so later ones must differ from it as from those in front.
      have same : (rest.filter fun other => other ∉ names ++ [name]) =
          rest.filter fun other => other ∉ name :: names := by
        refine List.filter_congr fun other _ => ?_
        rw [Bool.eq_iff_iff]
        simp [and_comm]
      rw [if_neg known, eraseDups_filter_cons known, same, List.append_assoc,
        List.singleton_append]

/-- In a list without repeats every appearance is the first. -/
theorem eraseDups_eq_self {names : List String} (h : names.Nodup) : names.eraseDups = names := by
  induction names with
  | nil => rfl
  | cons name rest ih =>
    obtain ⟨new, later⟩ := List.nodup_cons.1 h
    have kept : (rest.filter fun other => !other == name) = rest := by
      refine List.filter_eq_self.2 fun other inside => ?_
      have differs : other ≠ name := fun same => new (same ▸ inside)
      rw [Bool.not_eq_true', beq_eq_false_iff_ne]
      exact differs
    rw [List.eraseDups_cons, kept, ih later]

/-- The first appearances in a list without repeats and in what is put behind it. -/
theorem eraseDups_append_new {names : List String} (h : names.Nodup) (more : List String) :
    (names ++ more).eraseDups = names ++ (more.filter fun name => name ∉ names).eraseDups := by
  have new : more.removeAll names = more.filter fun name => name ∉ names := by
    refine List.filter_congr fun name _ => ?_
    rw [Bool.eq_iff_iff]
    simp
  rw [List.eraseDups_append, eraseDups_eq_self h, new]

end CodeDelta.Text
