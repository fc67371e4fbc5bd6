import CodeDelta.Json.Basic
import Mathlib.Tactic.SplitIfs

/-!
# Members under their names

The members of an object are looked up by name. Setting one changes what is found under its own name
and nothing else (`lookup_insertMember`), whether it is new or replaces a member of that name.
-/

namespace CodeDelta.Json

/-- The first member decides under its own name, and the others under every other one. -/
theorem lookup_cons_eq_if {α : Type} (name label : String) (value : α)
    (rest : List (String × α)) :
    ((name, value) :: rest).lookup label =
      if label = name then some value else rest.lookup label := by
  rw [List.lookup_cons]
  split_ifs with same
  · rw [beq_iff_eq.2 same]
  · rw [beq_eq_false_iff_ne.2 same]

/-- A member that was set is found under its name, and every other one as before. -/
theorem lookup_insertMember {α : Type} (name label : String) (value : α)
    (members : List (String × α)) :
    (insertMember name value members).lookup label =
      if label = name then some value else members.lookup label := by
  induction members with
  | nil => exact lookup_cons_eq_if name label value []
  | cons member rest ih =>
    obtain ⟨other, old⟩ := member
    by_cases before : name < other
    · rw [insertMember, if_pos before, lookup_cons_eq_if]
    · by_cases same : name = other
      · -- The old member of that name is replaced.
        subst same
        rw [insertMember, if_neg before, if_pos rfl, lookup_cons_eq_if, lookup_cons_eq_if]
        split_ifs <;> rfl
      · -- The member in front stays there; no name that is looked up is both its own and the new.
        rw [insertMember, if_neg before, if_neg same, lookup_cons_eq_if, lookup_cons_eq_if, ih]
        split_ifs with this that
        · exact absurd (that.symm.trans this) same
        · rfl
        · rfl
        · rfl

end CodeDelta.Json
