import CodeDelta.Proofs.Syntax.Places
import Mathlib.Data.List.Chain

/-!
# Rows of a syntax tree

The parts of a node follow one another in the source and lie within the node (`RowsNest`). Where
that holds of every node of a tree it holds below each of them (`IsOrdered.child`), and the rows at
which the parts of one start ascend (`IsOrdered.pairwise_firstRow`).
-/

namespace CodeDelta.SyntaxTree

/-- How the rows of a node and of its children lie: no child starts above the row on which the one
before it ends, and all of them lie within the rows of the node. -/
structure RowsNest (node : SyntaxTree) : Prop where
  /-- A node does not end above its start. -/
  forward : node.firstRow ≤ node.lastRow
  /-- A child starts no earlier than the row on which the child before it ends. -/
  ordered : node.children.IsChain fun before after => before.lastRow ≤ after.firstRow
  /-- Children lie within the rows of their parent. -/
  inside : ∀ child ∈ node.children, node.firstRow ≤ child.firstRow ∧ child.lastRow ≤ node.lastRow

/-- A tree in which the rows of every node lie so. -/
def IsOrdered (tree : SyntaxTree) : Prop :=
  ∀ place node, tree.at? place = some node → node.RowsNest

instance (node : SyntaxTree) : Decidable node.RowsNest :=
  decidable_of_iff (node.firstRow ≤ node.lastRow ∧
      node.children.IsChain (fun before after => before.lastRow ≤ after.firstRow) ∧
      ∀ child ∈ node.children, node.firstRow ≤ child.firstRow ∧ child.lastRow ≤ node.lastRow)
    ⟨fun h => ⟨h.1, h.2.1, h.2.2⟩, fun h => ⟨h.forward, h.ordered, h.inside⟩⟩

instance (tree : SyntaxTree) : Decidable tree.IsOrdered :=
  inferInstanceAs (Decidable (∀ place node, tree.at? place = some node → node.RowsNest))

variable {tree part : SyntaxTree}

/-- The rows of an ordered tree's root lie as they should. -/
theorem IsOrdered.root (h : tree.IsOrdered) : tree.RowsNest := h [] tree rfl

/-- The children of an ordered tree are ordered. -/
theorem IsOrdered.child (h : tree.IsOrdered) (inside : part ∈ tree.children) : part.IsOrdered :=
  forall_at?_child h inside

/-- What fills a field is a child. -/
theorem mem_children_of_field? {role : String} (h : tree.field? role = some part) :
    part ∈ tree.children :=
  List.mem_of_find?_eq_some h

/-- Later children start no earlier. -/
theorem IsOrdered.pairwise_firstRow (h : tree.IsOrdered) :
    tree.children.Pairwise fun before after => before.firstRow ≤ after.firstRow := by
  have steps : tree.children.IsChain fun before after => before.firstRow ≤ after.firstRow :=
    List.IsChain.imp_of_mem_imp
      (fun before _ inside _ apart => (h.child inside).root.forward.trans apart) h.root.ordered
  have further : tree.children.IsChain (InvImage (· ≤ ·) firstRow) := steps
  exact List.isChain_iff_pairwise.1 further

end CodeDelta.SyntaxTree
