import CodeDelta.Complexity
import CodeDelta.Proofs.Syntax.Places
import Mathlib.Algebra.Order.BigOperators.Group.List

/-!
# Complexity counts the forks

A node is a fork by its own kind and, when it is a binary expression, by its operator (`Forks`).
The forks of a tree are its root, if it is one, and those of its children (`forkCount_eq`). So they
are as many as the places at which control forks (`forkCount_eq_countWhere`), and no part of a tree
is more complex than the whole (`complexityIn_exact`).
-/

namespace CodeDelta.SyntaxTree

variable {language : Language} {tree part : SyntaxTree}

/-- Whether control forks at a node of a language's tree. -/
def Forks (language : Language) (tree : SyntaxTree) : Prop :=
  tree.kind ∈ language.forkKinds ∧
    (tree.kind = "binary_expression" → ∃ operator, tree.field? "operator" = some operator ∧
      (operator.text = "&&" ∨ operator.text = "||"))

/-- The operators of an expression that count are those two. -/
theorem hasLazyOperator_iff :
    tree.hasLazyOperator = true ↔ ∃ operator, tree.field? "operator" = some operator ∧
      (operator.text = "&&" ∨ operator.text = "||") := by
  unfold hasLazyOperator fieldText?
  rw [Option.any_map, Option.any_eq_true]
  simp [lazyOperators]

/-- The test for forks decides them. -/
theorem isFork_iff : tree.isFork language = true ↔ tree.Forks language := by
  unfold isFork Forks
  rw [Bool.and_eq_true, Bool.or_eq_true, hasLazyOperator_iff, List.contains_iff_mem, bne_iff_ne,
    ← imp_iff_not_or]

instance (language : Language) (tree : SyntaxTree) : Decidable (tree.Forks language) :=
  decidable_of_iff _ isFork_iff

/-! ## Forks of a tree and of its children -/

/-- The forks of several trees are those of each. -/
theorem forkCountAll_eq (language : Language) (trees : List SyntaxTree) :
    forkCountAll language trees = (trees.map fun tree => tree.forkCount language).sum := by
  induction trees with
  | nil => rfl
  | cons tree rest ih => rw [forkCountAll, ih, List.map_cons, List.sum_cons]

/-- The forks of a tree are its root, if it is one, and those of its children. -/
theorem forkCount_eq (language : Language) (tree : SyntaxTree) :
    tree.forkCount language =
      (if tree.Forks language then 1 else 0) +
        (tree.children.map fun child => child.forkCount language).sum := by
  cases tree
  rw [forkCount, forkCountAll_eq]
  simp only [isFork_iff]

/-- Going through a tree counts every node that is a fork. -/
theorem forkCount_eq_countWhere (language : Language) (tree : SyntaxTree) :
    tree.forkCount language = tree.countWhere (isFork language) := by
  induction tree using induction_children with
  | node tree ih =>
    rw [forkCount_eq, countWhere_eq, List.map_congr_left ih]
    simp only [isFork_iff]

/-- A child has no more forks than its parent. -/
theorem forkCount_le_of_mem_children {child : SyntaxTree} (inside : child ∈ tree.children) :
    child.forkCount language ≤ tree.forkCount language := by
  have among : child.forkCount language ≤
      (tree.children.map fun child => child.forkCount language).sum :=
    List.single_le_sum (fun _ _ => Nat.zero_le _) _ (List.mem_map_of_mem inside)
  rw [forkCount_eq language tree]
  omega

/-! ## The complexity of a tree -/

/-- A language is known by its name. -/
theorem complexityIn_name (language : Language) (tree : SyntaxTree) :
    tree.complexityIn language.name = tree.forkCount language + 1 := by
  cases language <;> rfl

/-- The complexity of a tree in a language is one more than the number of places at which control
forks: that of a node is one, one more if the node itself is a fork, and what the complexities of
its children have above one. No part of a tree is more complex than the tree. -/
theorem complexityIn_exact (language : Language) (tree : SyntaxTree) :
    ((tree.placesWhere (Forks language)).Finite ∧
      tree.complexityIn language.name = 1 + (tree.placesWhere (Forks language)).ncard) ∧
    tree.complexityIn language.name =
      1 + (if tree.Forks language then 1 else 0) +
        (tree.children.map fun child => child.complexityIn language.name - 1).sum ∧
    ∀ place part, tree.at? place = some part →
      part.complexityIn language.name ≤ tree.complexityIn language.name := by
  simp only [complexityIn_name, Nat.add_sub_cancel]
  refine ⟨?_, ?_, fun place part found => ?_⟩
  · have counted := ncard_placesWhere (isFork language) tree
    simp only [isFork_iff] at counted
    rw [counted.2, forkCount_eq_countWhere, add_comm]
    exact ⟨counted.1, rfl⟩
  · rw [forkCount_eq]
    omega
  · exact Nat.succ_le_succ (le_of_at? (fun _ _ => forkCount_le_of_mem_children) found)

/-- An expression with a lazy operator, one of whose operands has another operator. -/
example :
    let operator (text : String) : SyntaxTree := ⟨text, false, some "operator", text, 0, 0, []⟩
    let sum : SyntaxTree := ⟨"binary_expression", true, some "right", "", 0, 0, [operator "+"]⟩
    let both : SyntaxTree := ⟨"binary_expression", true, none, "", 0, 0, [operator "&&", sum]⟩
    both.complexityIn "rust" = 2 ∧ sum.complexityIn "rust" = 1 ∧
      both.complexityIn "python" = 1 := by
  decide

end CodeDelta.SyntaxTree
