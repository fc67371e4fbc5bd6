import CodeDelta.Proofs.Files.Path
import Mathlib.Logic.Relation

/-!
# Components and spellings

A path's components are those of its first piece, which may be the root or `.`, and the plain ones
of all pieces (`components_eq`). Behind a slash only the plain ones count, so a path that goes on
behind a slash has the components of both sides (`components_append_slash`), and slashes and dots
that stand for nothing can be written or left out (`SameSpelling.components_eq`).
-/

namespace CodeDelta.Path

/-- The component that a path starts with because of where it starts: the root, `.`, or none. -/
def start (path : String) : List Component :=
  if isAbsolute path then [.root]
  else if (pieces path).head? = some ['.'] then [.here] else []

/-- A path starts at the root when it is absolute, and else with a dot or with none. -/
theorem start_cases (path : String) :
    (isAbsolute path = true ∧ start path = [.root]) ∨
      (isAbsolute path = false ∧ (start path = [.here] ∨ start path = [])) := by
  unfold start
  cases isAbsolute path with
  | true => exact Or.inl ⟨rfl, if_pos rfl⟩
  | false =>
    rw [if_neg Bool.false_ne_true]
    refine Or.inr ⟨rfl, ?_⟩
    split_ifs
    · exact Or.inl rfl
    · exact Or.inr rfl

/-- The components that the pieces of a path stand for wherever they are. -/
def plain (path : String) : List Component := (pieces path).filterMap Component.ofPiece?

/-- The components of a path are the one it starts with and those of its pieces. -/
theorem components_eq (path : String) : components path = start path ++ plain path := rfl

/-- A path has a piece. -/
theorem pieces_ne_nil (path : String) : pieces path ≠ [] := by
  unfold pieces
  rw [Text.splitOnChar_eq_splitOn]
  exact List.splitOn_ne_nil '/' path.toList

/-- Pieces stand for the same components on both sides of a slash. -/
theorem plain_append_slash (front back : String) :
    plain (front ++ "/" ++ back) = plain front ++ plain back := by
  unfold plain
  rw [pieces_append_slash, List.filterMap_append]

/-- A plain component is a name or `..`. -/
theorem eq_up_of_mem_plain {path : String} {part : Component} (h : part ∈ plain path)
    (unnamed : part.name? = none) : part = .up := by
  obtain ⟨piece, -, read⟩ := List.mem_filterMap.1 h
  unfold Component.ofPiece? at read
  split_ifs at read
  · exact (Option.some.inj read).symm
  · rw [← Option.some.inj read] at unnamed
    exact absurd unnamed (Option.some_ne_none _)

/-- The components of a path start with the root when it is absolute, and only then. -/
theorem head?_components_eq_root_iff {path : String} :
    (components path).head? = some .root ↔ isAbsolute path = true := by
  rw [components_eq]
  rcases start_cases path with ⟨absolute, start⟩ | ⟨relative_, start | start⟩
  · rw [start]
    exact iff_of_true rfl absolute
  · rw [start, relative_]
    exact iff_of_false (by simp) Bool.false_ne_true
  · rw [start, relative_, List.nil_append]
    refine iff_of_false (fun first => ?_) Bool.false_ne_true
    exact absurd (eq_up_of_mem_plain (List.mem_of_head? first) rfl) (by decide)

/-- Neither nothing nor a dot is a plain component. -/
theorem plain_blank : plain "" = [] ∧ plain "." = [] := by decide

/-- A slash in front leaves the plain components. -/
theorem plain_slash (back : String) : plain ("/" ++ back) = plain back := by
  rw [← String.empty_append (s := "/"), plain_append_slash, plain_blank.1, List.nil_append]

/-- Where a path starts does not depend on what stands behind a slash. -/
theorem start_append_slash {front : String} (filled : front ≠ "") (back : String) :
    start (front ++ "/" ++ back) = start front := by
  obtain ⟨c, rest, chars⟩ :=
    List.exists_cons_of_ne_nil (mt String.toList_eq_nil_iff.1 filled)
  have absolute : isAbsolute (front ++ "/" ++ back) = isAbsolute front := by
    unfold isAbsolute
    rw [toList_append_slash, chars]
    rfl
  have first : (pieces (front ++ "/" ++ back)).head? = (pieces front).head? := by
    obtain ⟨piece, later, cut⟩ := List.exists_cons_of_ne_nil (pieces_ne_nil front)
    rw [pieces_append_slash, cut]
    rfl
  unfold start
  rw [absolute, first]

/-- A path that goes on behind a slash has the components of the path before it. -/
theorem components_append_slash {front : String} (filled : front ≠ "") (back : String) :
    components (front ++ "/" ++ back) = components front ++ plain back := by
  rw [components_eq, components_eq, start_append_slash filled, plain_append_slash,
    List.append_assoc]

/-- A path that starts with a slash has the root in front. -/
theorem components_slash (back : String) : components ("/" ++ back) = .root :: plain back := by
  have chars : ("/" ++ back).toList = '/' :: back.toList := String.toList_append
  have absolute : isAbsolute ("/" ++ back) = true := by
    unfold isAbsolute
    rw [chars]
    rfl
  rw [components_eq, plain_slash, start, if_pos absolute]
  rfl

/-- What stands behind a slash adds the components of its pieces alone. -/
theorem components_behind_slash (front back : String) :
    components (front ++ "/" ++ back) = components (front ++ "/") ++ plain back := by
  have closed : front ++ "/" = front ++ "/" ++ "" := String.append_empty.symm
  by_cases filled : front = ""
  · have root : components "/" = [.root] := by decide
    rw [filled, String.empty_append, components_slash, root]
    rfl
  · rw [components_append_slash filled, closed, components_append_slash filled, plain_blank.1,
      List.append_nil]

/-! ## Spellings -/

/-- One path spelled in two ways that differ in one place: in a slash more, or in a `.` behind a
slash. -/
inductive Respelled : String → String → Prop
  /-- A slash is repeated. -/
  | repeated (front back : String) : Respelled (front ++ "//" ++ back) (front ++ "/" ++ back)
  /-- A slash ends the path. -/
  | trailing (front : String) (filled : front ≠ "") : Respelled (front ++ "/") front
  /-- A dot stands between slashes. -/
  | inner (front back : String) : Respelled (front ++ "/./" ++ back) (front ++ "/" ++ back)
  /-- A dot stands behind the last slash. -/
  | last (front : String) : Respelled (front ++ "/.") (front ++ "/")

/-- Two spellings of one path: repeated slashes, slashes at the end and dots behind a slash are
written in one and not in the other. -/
def SameSpelling : String → String → Prop := Relation.EqvGen Respelled

/-- A respelled path has the same components. -/
theorem Respelled.components_eq {path other : String} (h : Respelled path other) :
    components path = components other := by
  cases h with
  | repeated front back =>
    have split : front ++ "//" ++ back = front ++ "/" ++ ("/" ++ back) := by
      rw [show "//" = "/" ++ "/" by decide]
      simp only [String.append_assoc]
    rw [split, components_behind_slash, plain_slash, ← components_behind_slash]
  | trailing other filled =>
    have closed : other ++ "/" = other ++ "/" ++ "" := String.append_empty.symm
    rw [closed, components_append_slash filled, plain_blank.1, List.append_nil]
  | inner front back =>
    have split : front ++ "/./" ++ back = front ++ "/" ++ ("." ++ "/" ++ back) := by
      rw [show "/./" = "/" ++ "." ++ "/" by decide]
      simp only [String.append_assoc]
    rw [split, components_behind_slash, plain_append_slash, plain_blank.2, List.nil_append,
      ← components_behind_slash]
  | last front =>
    have split : front ++ "/." = front ++ "/" ++ "." := by
      rw [show "/." = "/" ++ "." by decide]
      simp only [String.append_assoc]
    rw [split, components_behind_slash, plain_blank.2, List.append_nil]

/-- The components of a path do not depend on its spelling. -/
theorem SameSpelling.components_eq {path other : String} (h : SameSpelling path other) :
    components path = components other := by
  induction h with
  | rel path other once => exact once.components_eq
  | refl path => rfl
  | symm path other _ ih => exact ih.symm
  | trans path middle other _ _ first second => exact first.trans second

end CodeDelta.Path
