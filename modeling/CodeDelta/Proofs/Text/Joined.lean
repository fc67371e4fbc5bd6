import CodeDelta.Proofs.Text.Split

/-!
# Joined texts

A text that is joined from parts holds the characters of the parts and of the joint between them,
and no others (`mem_intercalate`). The parts can be told from it when no part holds the character
that the joint starts with (`intercalate_inj`).
-/

namespace CodeDelta.Text

/-- Two texts that are cut at their first marks are the same part by part. -/
theorem append_mark_inj {mark : Char} {before before' : List Char} (h : mark ∉ before)
    (h' : mark ∉ before') (after after' : List Char) :
    before ++ mark :: after = before' ++ mark :: after' ↔ before = before' ∧ after = after' := by
  constructor
  · intro same
    have cut := congrArg (splitFirst? mark) same
    rw [splitFirst?_append_cons h, splitFirst?_append_cons h'] at cut
    exact Prod.mk.inj (Option.some.inj cut)
  · rintro ⟨rfl, rfl⟩
    rfl

/-- A joined text holds the characters of its joint and of its parts. -/
theorem mem_intercalate {joint : String} {parts : List String} {c : Char}
    (h : c ∈ (joint.intercalate parts).toList) :
    c ∈ joint.toList ∨ ∃ part ∈ parts, c ∈ part.toList := by
  induction parts with
  | nil => exact absurd h List.not_mem_nil
  | cons first rest ih =>
    cases rest with
    | nil =>
      rw [String.intercalate_singleton] at h
      exact Or.inr ⟨first, List.mem_cons_self, h⟩
    | cons second later =>
      rw [String.intercalate_cons_cons, String.toList_append, String.toList_append,
        List.mem_append, List.mem_append] at h
      rcases h with (h | h) | h
      · exact Or.inr ⟨first, List.mem_cons_self, h⟩
      · exact Or.inl h
      · rcases ih h with between | ⟨part, inside, hc⟩
        · exact Or.inl between
        · exact Or.inr ⟨part, List.mem_cons_of_mem first inside, hc⟩

/-- A joined text holds no character that neither its joint nor a part holds. -/
theorem not_mem_intercalate {joint : String} {parts : List String} {c : Char}
    (between : c ∉ joint.toList) (h : ∀ part ∈ parts, c ∉ part.toList) :
    c ∉ (joint.intercalate parts).toList := by
  intro inside
  rcases mem_intercalate inside with inside | ⟨part, hp, inside⟩
  · exact between inside
  · exact h part hp inside

/-- The characters of a text that goes on behind a joint. -/
theorem toList_intercalate_cons_cons {joint : String} {mark : Char} {tail : List Char}
    (lead : joint.toList = mark :: tail) (first second : String) (rest : List String) :
    (joint.intercalate (first :: second :: rest)).toList =
      first.toList ++ mark :: (tail ++ (joint.intercalate (second :: rest)).toList) := by
  rw [String.intercalate_cons_cons, String.toList_append, String.toList_append, lead,
    List.append_assoc]
  rfl

/-- The parts are told from a joined text, when none of them holds the character that the joint
starts with. -/
theorem intercalate_inj {joint : String} {mark : Char} {tail : List Char}
    (lead : joint.toList = mark :: tail) {parts others : List String}
    (h : ∀ part ∈ parts, mark ∉ part.toList) (h' : ∀ part ∈ others, mark ∉ part.toList)
    (filled : parts ≠ []) (filled' : others ≠ [])
    (same : joint.intercalate parts = joint.intercalate others) : parts = others := by
  have text := String.toList_inj.2 same
  clear same
  induction parts generalizing others with
  | nil => exact absurd rfl filled
  | cons first rest ih =>
    obtain ⟨other, more, rfl⟩ := List.exists_cons_of_ne_nil filled'
    have plain : mark ∉ first.toList := h first List.mem_cons_self
    have plain' : mark ∉ other.toList := h' other List.mem_cons_self
    cases rest with
    | nil =>
      cases more with
      | nil =>
        rw [String.intercalate_singleton, String.intercalate_singleton] at text
        rw [String.toList_inj.1 text]
      | cons second later =>
        -- The mark of the second joint would stand in the only part of the first text.
        rw [String.intercalate_singleton, toList_intercalate_cons_cons lead] at text
        exact absurd (text ▸ List.mem_append_right _ List.mem_cons_self) plain
    | cons second later =>
      cases more with
      | nil =>
        rw [String.intercalate_singleton, toList_intercalate_cons_cons lead] at text
        exact absurd (text ▸ List.mem_append_right _ List.mem_cons_self) plain'
      | cons second' later' =>
        rw [toList_intercalate_cons_cons lead, toList_intercalate_cons_cons lead,
          append_mark_inj plain plain', List.append_cancel_left_eq] at text
        have behind := ih (fun part hp => h part (List.mem_cons_of_mem first hp))
          (fun part hp => h' part (List.mem_cons_of_mem other hp)) (List.cons_ne_nil _ _)
          (List.cons_ne_nil _ _) text.2
        rw [String.toList_inj.1 text.1, behind]

/-- Parts that are not empty are told from a joined text also where there may be none. -/
theorem intercalate_inj_of_ne {joint : String} {mark : Char} {tail : List Char}
    (lead : joint.toList = mark :: tail) {parts others : List String}
    (h : ∀ part ∈ parts, part ≠ "" ∧ mark ∉ part.toList)
    (h' : ∀ part ∈ others, part ≠ "" ∧ mark ∉ part.toList)
    (same : joint.intercalate parts = joint.intercalate others) : parts = others := by
  have filled {first : String} {rest : List String} (h : first ≠ "") :
      joint.intercalate (first :: rest) ≠ "" := by
    intro empty
    have chars := congrArg String.toList empty
    cases rest with
    | nil =>
      rw [String.intercalate_singleton] at empty
      exact h empty
    | cons second later =>
      rw [toList_intercalate_cons_cons lead] at chars
      exact absurd chars (List.append_ne_nil_of_right_ne_nil _ (List.cons_ne_nil _ _))
  cases parts with
  | nil =>
    cases others with
    | nil => rfl
    | cons other more => exact absurd same.symm (filled (h' other List.mem_cons_self).1)
  | cons first rest =>
    cases others with
    | nil => exact absurd same (filled (h first List.mem_cons_self).1)
    | cons other more =>
      exact intercalate_inj lead (fun part inside => (h part inside).2)
        (fun part inside => (h' part inside).2) (List.cons_ne_nil _ _) (List.cons_ne_nil _ _) same

end CodeDelta.Text
