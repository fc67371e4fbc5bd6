import CodeDelta.Syntax.Tree
import Mathlib.Algebra.GroupWithZero.Nat
import Mathlib.Data.List.Nodup
import Mathlib.Data.Set.Card

/-!
# Places in a syntax tree

Equal nodes may stand at several places of a tree, so nodes are told apart by their places: the way
that leads to a node from the root, as the number of the child to take at each step (`at?`). All of
them are listed in source order, each once (`nodup_places`) and no others (`mem_places_iff`). So a
property of all nodes is decidable when it is one of each node, and the nodes that have a property
are counted by going through the tree (`ncard_placesWhere`, `countWhere_eq`).
-/

namespace CodeDelta.SyntaxTree

/-- The node that a place leads to. -/
def at? (tree : SyntaxTree) : List Nat → Option SyntaxTree
  | [] => some tree
  | index :: place => tree.children[index]?.bind fun child => child.at? place

/-- The places of the nodes that have a property. -/
def placesWhere (property : SyntaxTree → Prop) (tree : SyntaxTree) : Set (List Nat) :=
  {place | ∃ node, tree.at? place = some node ∧ property node}

mutual

/-- All places of a tree, the root's first. -/
def places : SyntaxTree → List (List Nat)
  | ⟨_, _, _, _, _, _, children⟩ => [] :: placesAmong children

/-- The places below a node, whose first step chooses among its children. -/
def placesAmong : List SyntaxTree → List (List Nat)
  | [] => []
  | child :: rest =>
    child.places.map (0 :: ·) ++ (placesAmong rest).map (List.modifyHead (· + 1))

end

/-- What holds of a node as soon as it holds of its children holds of every tree. -/
@[elab_as_elim]
theorem induction_children {motive : SyntaxTree → Prop}
    (node : ∀ tree, (∀ child ∈ tree.children, motive child) → motive tree) (tree : SyntaxTree) :
    motive tree :=
  node tree fun child _ => induction_children node child
termination_by tree
decreasing_by
  cases tree
  have smaller := List.sizeOf_lt_of_mem ‹child ∈ _›
  simp only [SyntaxTree.mk.sizeOf_spec] at smaller ⊢
  omega

/-! ## The nodes at places -/

/-- A place below the root goes on from one of the children. -/
theorem at?_cons_eq_some_iff {tree node : SyntaxTree} {index : Nat} {place : List Nat} :
    tree.at? (index :: place) = some node ↔
      ∃ child, tree.children[index]? = some child ∧ child.at? place = some node :=
  Option.bind_eq_some_iff

/-- What holds of all nodes of a tree holds of those below a child. -/
theorem forall_at?_child {property : SyntaxTree → Prop} {tree child : SyntaxTree}
    (h : ∀ place node, tree.at? place = some node → property node)
    (inside : child ∈ tree.children) :
    ∀ place node, child.at? place = some node → property node := by
  intro place node found
  obtain ⟨index, here⟩ := List.mem_iff_getElem?.1 inside
  exact h (index :: place) node (at?_cons_eq_some_iff.2 ⟨child, here, found⟩)

/-- What holds of all nodes of a tree holds of its root and of those below each child. -/
theorem forall_at?_iff_children {property : SyntaxTree → Prop} {tree : SyntaxTree} :
    (∀ place node, tree.at? place = some node → property node) ↔
      property tree ∧ ∀ child ∈ tree.children, ∀ place node, child.at? place = some node →
        property node := by
  constructor
  · exact fun h => ⟨h [] tree rfl, fun _ inside => forall_at?_child h inside⟩
  · rintro ⟨root, below⟩ (_ | ⟨index, place⟩) node found
    · obtain rfl := Option.some.inj found
      exact root
    · obtain ⟨child, here, found⟩ := at?_cons_eq_some_iff.1 found
      exact below child (List.mem_of_getElem? here) place node found

/-- A quantity that grows from a child to its parent is never smaller than at any node below. -/
theorem le_of_at? {size : SyntaxTree → Nat}
    (grows : ∀ tree, ∀ child ∈ tree.children, size child ≤ size tree) {tree part : SyntaxTree}
    {place : List Nat} (h : tree.at? place = some part) : size part ≤ size tree := by
  induction place generalizing tree with
  | nil =>
    obtain rfl := Option.some.inj h
    exact le_rfl
  | cons index place ih =>
    obtain ⟨child, here, below⟩ := at?_cons_eq_some_iff.1 h
    exact (ih below).trans (grows tree child (List.mem_of_getElem? here))

/-! ## All places -/

/-- The places of a tree are the root's and those below. -/
theorem places_eq (tree : SyntaxTree) : tree.places = [] :: placesAmong tree.children := by
  cases tree
  rw [places]

/-- A place below a node chooses a child and goes on from it. -/
theorem mem_placesAmong_iff {trees : List SyntaxTree} {place : List Nat} :
    place ∈ placesAmong trees ↔
      ∃ index later child, place = index :: later ∧ trees[index]? = some child ∧
        later ∈ child.places := by
  induction trees generalizing place with
  | nil => simp [placesAmong]
  | cons tree rest ih =>
    rw [placesAmong, List.mem_append, List.mem_map, List.mem_map]
    constructor
    · rintro (⟨later, inside, rfl⟩ | ⟨place, inside, rfl⟩)
      · exact ⟨0, later, tree, rfl, rfl, inside⟩
      · obtain ⟨index, later, child, rfl, here, inside⟩ := ih.1 inside
        exact ⟨index + 1, later, child, rfl, here, inside⟩
    · rintro ⟨index, later, child, rfl, here, inside⟩
      cases index with
      | zero =>
        obtain rfl := Option.some.inj here
        exact Or.inl ⟨later, inside, rfl⟩
      | succ index =>
        exact Or.inr ⟨index :: later, ih.2 ⟨index, later, child, rfl, here, inside⟩, rfl⟩

/-- The places that are listed are those at which a node stands. -/
theorem mem_places_iff {tree : SyntaxTree} {place : List Nat} :
    place ∈ tree.places ↔ ∃ node, tree.at? place = some node := by
  induction tree using induction_children generalizing place with
  | node tree ih =>
    rw [places_eq, List.mem_cons, mem_placesAmong_iff]
    cases place with
    | nil => exact ⟨fun _ => ⟨tree, rfl⟩, fun _ => Or.inl rfl⟩
    | cons index place =>
      constructor
      · rintro (root | ⟨_, _, child, same, here, inside⟩)
        · exact absurd root (List.cons_ne_nil _ _)
        · obtain ⟨rfl, rfl⟩ := List.cons.inj same
          obtain ⟨node, found⟩ := (ih child (List.mem_of_getElem? here)).1 inside
          exact ⟨node, at?_cons_eq_some_iff.2 ⟨child, here, found⟩⟩
      · rintro ⟨node, found⟩
        obtain ⟨child, here, below⟩ := at?_cons_eq_some_iff.1 found
        exact Or.inr ⟨index, place, child, rfl, here,
          (ih child (List.mem_of_getElem? here)).2 ⟨node, below⟩⟩

/-- Places that start with a later child are told apart by where they would start without the
first one. -/
theorem injective_modifyHead_succ :
    Function.Injective (List.modifyHead (· + 1) : List Nat → List Nat) := by
  intro left right same
  cases left <;> cases right <;> simp_all

/-- No place below a node is listed twice when none of a child is. -/
theorem nodup_placesAmong {trees : List SyntaxTree} (h : ∀ tree ∈ trees, tree.places.Nodup) :
    (placesAmong trees).Nodup := by
  induction trees with
  | nil => exact List.nodup_nil
  | cons tree rest ih =>
    rw [placesAmong, List.nodup_append]
    refine ⟨(h tree List.mem_cons_self).map List.cons_injective,
      (ih fun other inside => h other (List.mem_cons_of_mem tree inside)).map
        injective_modifyHead_succ, ?_⟩
    rintro _ first _ second rfl
    obtain ⟨later, -, rfl⟩ := List.mem_map.1 first
    obtain ⟨place, inside, same⟩ := List.mem_map.1 second
    obtain ⟨index, other, child, rfl, -, -⟩ := mem_placesAmong_iff.1 inside
    exact Nat.succ_ne_zero index (List.cons.inj same).1

/-- No place of a tree is listed twice. -/
theorem nodup_places (tree : SyntaxTree) : tree.places.Nodup := by
  induction tree using induction_children with
  | node tree ih =>
    rw [places_eq, List.nodup_cons]
    refine ⟨fun root => ?_, nodup_placesAmong ih⟩
    obtain ⟨_, _, _, same, -, -⟩ := mem_placesAmong_iff.1 root
    exact absurd same.symm (List.cons_ne_nil _ _)

/-- A property of all nodes is one of the nodes at the places that are listed. -/
theorem forall_at?_iff {property : SyntaxTree → Prop} {tree : SyntaxTree} :
    (∀ place node, tree.at? place = some node → property node) ↔
      ∀ place ∈ tree.places, ∀ node ∈ tree.at? place, property node :=
  ⟨fun h place _ node found => h place node found,
    fun h place node found => h place (mem_places_iff.2 ⟨node, found⟩) node found⟩

instance (property : SyntaxTree → Prop) [DecidablePred property] (tree : SyntaxTree) :
    Decidable (∀ place node, tree.at? place = some node → property node) :=
  decidable_of_iff _ forall_at?_iff.symm

/-! ## Counting nodes -/

/-- The number of nodes that pass a test. -/
def countWhere (test : SyntaxTree → Bool) (tree : SyntaxTree) : Nat :=
  tree.places.countP fun place => (tree.at? place).any test

/-- The number counts the places at which a node passes the test. -/
theorem ncard_placesWhere (test : SyntaxTree → Bool) (tree : SyntaxTree) :
    (tree.placesWhere fun node => test node = true).Finite ∧
      (tree.placesWhere fun node => test node = true).ncard = tree.countWhere test := by
  have listed : (tree.placesWhere fun node => test node = true) =
      ↑(tree.places.filter fun place => (tree.at? place).any test).toFinset := by
    ext place
    rw [List.coe_toFinset]
    simp only [placesWhere, Set.mem_ofPred_eq, List.mem_filter, Option.any_eq_true, mem_places_iff]
    constructor
    · rintro ⟨node, found, passes⟩
      exact ⟨⟨node, found⟩, node, found, passes⟩
    · rintro ⟨-, node, found, passes⟩
      exact ⟨node, found, passes⟩
  rw [listed]
  refine ⟨Finset.finite_toSet _, ?_⟩
  rw [Set.ncard_coe_finset, List.toFinset_card_of_nodup (tree.nodup_places.filter _),
    ← List.countP_eq_length_filter, countWhere]

/-- Below a node, the children's nodes are counted. -/
theorem countP_placesAmong (test : SyntaxTree → Bool) (trees : List SyntaxTree) :
    (placesAmong trees).countP (fun place =>
        (place.head?.bind fun index => trees[index]?.bind fun child =>
          child.at? place.tail).any test) =
      (trees.map fun child => child.countWhere test).sum := by
  induction trees with
  | nil => rfl
  | cons tree rest ih =>
    rw [placesAmong, List.countP_append, List.countP_map, List.countP_map, List.map_cons,
      List.sum_cons, ← ih]
    refine congrArg₂ (· + ·) rfl (List.countP_congr fun place _ => ?_)
    -- Where the first child is left out, every other one moves up by one place.
    cases place <;> rfl

/-- The nodes of a tree are its root and the nodes of its children. -/
theorem countWhere_eq (test : SyntaxTree → Bool) (tree : SyntaxTree) :
    tree.countWhere test =
      (if test tree = true then 1 else 0) +
        (tree.children.map fun child => child.countWhere test).sum := by
  have below : (placesAmong tree.children).countP (fun place => (tree.at? place).any test) =
      (tree.children.map fun child => child.countWhere test).sum := by
    rw [← countP_placesAmong]
    refine List.countP_congr fun place inside => ?_
    obtain ⟨index, later, child, rfl, -, -⟩ := mem_placesAmong_iff.1 inside
    rfl
  rw [countWhere, places_eq, List.countP_cons, below, add_comm]
  rfl

end CodeDelta.SyntaxTree
