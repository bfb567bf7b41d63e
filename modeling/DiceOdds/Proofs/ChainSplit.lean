import DiceOdds.Proofs.Turning

/-
This file finds the root of the tree of a chain. A chain splits at the last of its loosest
operators, both sides split in the same way, and no other tree gives its operators their precedence.
-/

namespace DiceOdds

namespace OperatorTree

variable {A O : Type} {rank : O → Nat}

/-- An operator is the last of the loosest ones when none before it is looser and all after it are
tighter. -/
structure IsLastLoosest (rank : O → Nat) (before : List (O × A)) (operator : O)
    (after : List (O × A)) : Prop where
  loosest : ∀ link ∈ before, rank operator ≤ rank link.1
  last : ∀ link ∈ after, rank operator < rank link.1

/-- A chain splits into a tree whose root is the last of its loosest operators, and both sides of
the root split in the same way. -/
inductive Splits (rank : O → Nat) : A → List (O × A) → OperatorTree A O → Prop where
  | leaf (value : A) : Splits rank value [] (.leaf value)
  | node {value second : A} {before after : List (O × A)} {operator : O}
      {left right : OperatorTree A O} (root : IsLastLoosest rank before operator after)
      (ofLeft : Splits rank value before left) (ofRight : Splits rank second after right) :
      Splits rank value (before ++ (operator, second) :: after) (.node left operator right)

theorem Splits.reads {value : A} {links : List (O × A)} {tree : OperatorTree A O}
    (splits : Splits rank value links tree) : tree.first = value ∧ tree.rest = links := by
  induction splits with
  | leaf value => exact ⟨rfl, rfl⟩
  | node root ofLeft ofRight left right =>
      exact ⟨left.1, by rw [rest, left.2, right.1, right.2]⟩

/-- Splitting gives every operator its precedence. -/
theorem Splits.ordered {value : A} {links : List (O × A)} {tree : OperatorTree A O}
    (splits : Splits rank value links tree) : tree.Ordered rank := by
  induction splits with
  | leaf value => trivial
  | node root ofLeft ofRight left right =>
      refine ⟨left, right, le_root_of_le_rest ?_, le_root_of_le_rest ?_⟩
      · rw [ofLeft.reads.2]
        exact root.loosest
      · rw [ofRight.reads.2]
        exact root.last

/-- The root of an ordered tree is the last of its loosest operators. -/
theorem Ordered.isLastLoosest {left right : OperatorTree A O} {operator : O}
    (ordered : (node left operator right).Ordered rank) :
    IsLastLoosest rank left.rest operator right.rest :=
  ⟨ordered.left_le, ordered.right_lt⟩

/-- An ordered tree splits the chain that it reads as. -/
theorem Ordered.splits {tree : OperatorTree A O} (ordered : tree.Ordered rank) :
    Splits rank tree.first tree.rest tree := by
  induction tree with
  | leaf value => exact .leaf value
  | node left operator right ofLeft ofRight =>
      exact .node ordered.isLastLoosest (ofLeft ordered.1) (ofRight ordered.2.1)

theorem splits_iff_ordered {value : A} {links : List (O × A)} {tree : OperatorTree A O} :
    Splits rank value links tree ↔ tree.first = value ∧ tree.rest = links ∧ tree.Ordered rank := by
  constructor
  · intro splits
    exact ⟨splits.reads.1, splits.reads.2, splits.ordered⟩
  · rintro ⟨rfl, rfl, ordered⟩
    exact ordered.splits

/-- The tree of a chain is the only ordered tree that reads as the chain. -/
theorem ordered_iff_eq_ofChain {value : A} {links : List (O × A)} {tree : OperatorTree A O} :
    (tree.first = value ∧ tree.rest = links ∧ tree.Ordered rank) ↔
      tree = ofChain rank value links := by
  have first : (ofChain rank value links).first = value := by
    rw [ofChain, settle_first, rightNested_first]
  have rest : (ofChain rank value links).rest = links := by
    rw [ofChain, settle_rest, rightNested_rest]
  constructor
  · rintro ⟨sameFirst, sameRest, ordered⟩
    exact ordered.unique (ofChain_ordered value links) (sameFirst.trans first.symm)
      (sameRest.trans rest.symm)
  · rintro rfl
    exact ⟨first, rest, ofChain_ordered value links⟩

/-- Whatever the ranks are, a chain that nests to the right settles to the one tree that reads as
the chain, has no operator above a looser left one and no operator above a right one that is as
loose. It is the tree that splits the chain at the last of its loosest operators, on both sides again
and again, and the driver finds it and nothing else. -/
theorem settle_rightNested (rank : O → Nat) (value : A) (links : List (O × A))
    (tree : OperatorTree A O) :
    (tree = settle rank (rightNested value links) ↔
      tree.first = value ∧ tree.rest = links ∧ tree.Ordered rank) ∧
    (tree = settle rank (rightNested value links) ↔ Splits rank value links tree) ∧
    (tree = settle rank (rightNested value links) ↔ Drives rank (rightNested value links) tree) := by
  have chain : tree = settle rank (rightNested value links) ↔
      tree.first = value ∧ tree.rest = links ∧ tree.Ordered rank :=
    ordered_iff_eq_ofChain.symm
  exact ⟨chain, chain.trans splits_iff_ordered.symm, drives_iff.symm⟩

/-- Where sums bind more tightly than products, a product of sums splits at its last product. -/
example : settle (fun operator : Operator => 4 - operator.rank)
    (rightNested 1 [(.add, 2), (.multiply, 3), (.multiply, 4), (.add, 5)]) =
      .node (.node (.node (.leaf 1) .add (.leaf 2)) .multiply (.leaf 3)) .multiply
        (.node (.leaf 4) .add (.leaf 5)) :=
  rfl

end OperatorTree

end DiceOdds
