import DiceOdds.Statement
import Mathlib.Tactic

/-
This file says which trees give every operator its precedence. A chain of operators has exactly one
such tree, and reading a chain builds it although terms and conditions are settled apart.
-/

namespace DiceOdds

namespace OperatorTree

variable {A O : Type} {rank : O → Nat}

/-- This is the first leaf of a tree that is read in order. -/
def first : OperatorTree A O → A
  | .leaf value => value
  | .node left _ _ => left.first

/-- These are the operators and leaves that follow the first leaf. -/
def rest : OperatorTree A O → List (O × A)
  | .leaf _ => []
  | .node left operator right => left.rest ++ (operator, right.first) :: right.rest

/-- These are all leaves from left to right. -/
def leaves (tree : OperatorTree A O) : List A :=
  tree.first :: tree.rest.map Prod.snd

theorem leaves_node (left right : OperatorTree A O) (operator : O) :
    (node left operator right).leaves = left.leaves ++ right.leaves := by
  simp [leaves, first, rest]

/-- A leaf has no operator at its root. -/
def root? : OperatorTree A O → Option O
  | .leaf _ => none
  | .node _ operator _ => some operator

/-- An ordered tree has no operator below a tighter one, and equal ones nest to the left. -/
def Ordered (rank : O → Nat) : OperatorTree A O → Prop
  | .leaf _ => True
  | .node left operator right =>
      left.Ordered rank ∧ right.Ordered rank ∧
        (∀ inner ∈ left.root?, rank operator ≤ rank inner) ∧
        ∀ inner ∈ right.root?, rank operator < rank inner

theorem exists_root {tree : OperatorTree A O} {link : O × A} (member : link ∈ tree.rest) :
    ∃ root, root ∈ tree.root? := by
  cases tree with
  | leaf value => cases member
  | node left operator right => exact ⟨operator, rfl⟩

theorem le_root_of_le_rest {tree : OperatorTree A O} {bound : Nat}
    (above : ∀ link ∈ tree.rest, bound ≤ rank link.1) : ∀ root ∈ tree.root?, bound ≤ rank root := by
  intro root atRoot
  cases tree with
  | leaf value => cases atRoot
  | node left operator right =>
      cases atRoot
      exact above (root, right.first) (by simp [rest])

/-- The root of an ordered tree is one of its loosest operators. -/
theorem Ordered.root_le {tree : OperatorTree A O} (ordered : tree.Ordered rank) {root : O}
    (atRoot : root ∈ tree.root?) : ∀ link ∈ tree.rest, rank root ≤ rank link.1 := by
  induction tree generalizing root with
  | leaf value => cases atRoot
  | node left operator right ofLeft ofRight =>
      cases atRoot
      obtain ⟨leftOrdered, rightOrdered, leftRoot, rightRoot⟩ := ordered
      intro link member
      rcases List.mem_append.1 member with before | after
      · obtain ⟨inner, found⟩ := exists_root before
        exact Nat.le_trans (leftRoot inner found) (ofLeft leftOrdered found link before)
      · rcases List.mem_cons.1 after with rfl | after
        · exact Nat.le_refl _
        · obtain ⟨inner, found⟩ := exists_root after
          exact Nat.le_trans (Nat.le_of_lt (rightRoot inner found))
            (ofRight rightOrdered found link after)

/-- The operators of a left child are at least as tight as its parent. -/
theorem Ordered.left_le {left right : OperatorTree A O} {operator : O}
    (ordered : (node left operator right).Ordered rank) :
    ∀ link ∈ left.rest, rank operator ≤ rank link.1 := by
  intro link member
  obtain ⟨inner, found⟩ := exists_root member
  exact Nat.le_trans (ordered.2.2.1 inner found) (ordered.1.root_le found link member)

/-- The operators of a right child are tighter than its parent. -/
theorem Ordered.right_lt {left right : OperatorTree A O} {operator : O}
    (ordered : (node left operator right).Ordered rank) :
    ∀ link ∈ right.rest, rank operator < rank link.1 := by
  intro link member
  obtain ⟨inner, found⟩ := exists_root member
  exact Nat.lt_of_lt_of_le (ordered.2.2.2 inner found) (ordered.2.1.root_le found link member)

/-- The last of the loosest operators splits a chain in one place only. -/
theorem split_unique {before after otherBefore otherAfter : List (O × A)}
    {link other : O × A} (above : ∀ earlier ∈ before, rank link.1 ≤ rank earlier.1)
    (beyond : ∀ later ∈ after, rank link.1 < rank later.1)
    (otherAbove : ∀ earlier ∈ otherBefore, rank other.1 ≤ rank earlier.1)
    (otherBeyond : ∀ later ∈ otherAfter, rank other.1 < rank later.1)
    (same : before ++ link :: after = otherBefore ++ other :: otherAfter) :
    before = otherBefore ∧ link = other ∧ after = otherAfter := by
  rcases List.append_eq_append_iff.1 same with ⟨middle, longer, shared⟩ | ⟨middle, longer, shared⟩
  · cases middle with
    | nil =>
        obtain ⟨rfl, rfl⟩ := List.cons.inj shared
        exact ⟨by simpa using longer.symm, rfl, rfl⟩
    | cons moved middle =>
        obtain ⟨rfl, rfl⟩ := List.cons.inj shared
        have tighter := beyond other (by simp)
        have looser := otherAbove link (by simp [longer])
        omega
  · cases middle with
    | nil =>
        obtain ⟨rfl, rfl⟩ := List.cons.inj shared
        exact ⟨by simpa using longer, rfl, rfl⟩
    | cons moved middle =>
        obtain ⟨rfl, rfl⟩ := List.cons.inj shared
        have tighter := otherBeyond link (by simp)
        have looser := above other (by simp [longer])
        omega

/-- Two ordered trees that read the same are the same. -/
theorem Ordered.unique {tree other : OperatorTree A O} (ofTree : tree.Ordered rank)
    (ofOther : other.Ordered rank) (sameFirst : tree.first = other.first)
    (sameRest : tree.rest = other.rest) : tree = other := by
  induction tree generalizing other with
  | leaf value =>
      cases other with
      | leaf alsoValue => exact congrArg leaf sameFirst
      | node left operator right => simp [rest] at sameRest
  | node left operator right knownLeft knownRight =>
      cases other with
      | leaf value => simp [rest] at sameRest
      | node otherLeft otherOperator otherRight =>
          obtain ⟨before, link, after⟩ := split_unique ofTree.left_le ofTree.right_lt
            ofOther.left_le ofOther.right_lt sameRest
          obtain ⟨rfl, heads⟩ := Prod.mk.inj link
          rw [knownLeft ofTree.1 ofOther.1 sameFirst before,
            knownRight ofTree.2.1 ofOther.2.1 heads after]

section Settling

@[simp] theorem attach_first (left : OperatorTree A O) (operator : O) (right : OperatorTree A O) :
    (attach rank left operator right).first = left.first := by
  induction right generalizing left operator with
  | leaf value => rfl
  | node middle inner right ofMiddle ofRight =>
      rw [attach]
      split
      · rw [ofRight, ofMiddle]
      · rfl

@[simp] theorem attach_rest (left : OperatorTree A O) (operator : O) (right : OperatorTree A O) :
    (attach rank left operator right).rest = left.rest ++ (operator, right.first) :: right.rest := by
  induction right generalizing left operator with
  | leaf value => rfl
  | node middle inner right ofMiddle ofRight =>
      rw [attach]
      split
      · rw [ofRight, ofMiddle]
        simp [rest, first]
      · rfl

/-- Attaching keeps ordered trees ordered when the left one has no looser operator. -/
theorem attach_ordered {left right : OperatorTree A O} {operator : O}
    (ofLeft : left.Ordered rank) (above : ∀ link ∈ left.rest, rank operator ≤ rank link.1)
    (ofRight : right.Ordered rank) : (attach rank left operator right).Ordered rank := by
  induction right generalizing left operator with
  | leaf value =>
      exact ⟨ofLeft, trivial, le_root_of_le_rest above, by simp [root?]⟩
  | node middle inner right ofMiddle knownRight =>
      rw [attach]
      split
      · next looser =>
          refine knownRight (ofMiddle ofLeft above ofRight.1) (fun link member => ?_) ofRight.2.1
          rw [attach_rest] at member
          rcases List.mem_append.1 member with before | after
          · exact Nat.le_trans looser (above link before)
          · rcases List.mem_cons.1 after with rfl | after
            · exact looser
            · exact ofRight.left_le link after
      · next tighter =>
          refine ⟨ofLeft, ofRight, le_root_of_le_rest above, fun root atRoot => ?_⟩
          cases atRoot
          exact Nat.lt_of_not_le tighter

@[simp] theorem settle_first (tree : OperatorTree A O) : (tree.settle rank).first = tree.first := by
  induction tree with
  | leaf value => rfl
  | node left operator right ofLeft ofRight => rw [settle, attach_first, ofLeft, first]

@[simp] theorem settle_rest (tree : OperatorTree A O) : (tree.settle rank).rest = tree.rest := by
  induction tree with
  | leaf value => rfl
  | node left operator right ofLeft ofRight =>
      rw [settle, attach_rest, ofLeft, ofRight, settle_first, rest]

/-- A tree nests to the right when every left child is a leaf. -/
def NestsRight : OperatorTree A O → Prop
  | .leaf _ => True
  | .node (.leaf _) _ right => right.NestsRight
  | .node (.node _ _ _) _ _ => False

theorem settle_ordered {tree : OperatorTree A O} (nests : tree.NestsRight) :
    (tree.settle rank).Ordered rank := by
  induction tree with
  | leaf value => trivial
  | node left operator right ofLeft ofRight =>
      cases left with
      | leaf value =>
          have single : (leaf value).Ordered rank := trivial
          exact attach_ordered single (by simp [rest]) (ofRight nests)
      | node => cases nests

theorem rightNested_nestsRight (value : A) (links : List (O × A)) :
    (rightNested value links).NestsRight := by
  induction links generalizing value with
  | nil => trivial
  | cons link links known => exact known link.2

@[simp] theorem rightNested_first (value : A) (links : List (O × A)) :
    (rightNested value links).first = value := by
  cases links <;> rfl

@[simp] theorem rightNested_rest (value : A) (links : List (O × A)) :
    (rightNested value links).rest = links := by
  induction links generalizing value with
  | nil => rfl
  | cons link links known =>
      rw [rightNested, rest, rest, known, rightNested_first]
      rfl

/-- A chain that is given its precedence is ordered and reads as before. -/
theorem ofChain_ordered (value : A) (links : List (O × A)) :
    (ofChain rank value links).Ordered rank :=
  settle_ordered (rightNested_nestsRight value links)

end Settling

section Flattening

/-- This function forgets which operators stand between terms and which stand inside of them. -/
def flatten : OperatorTree (OperatorTree A O) O → OperatorTree A O
  | .leaf term => term
  | .node left operator right => .node left.flatten operator right.flatten

/-- This is what a term adds to a chain after its operator. -/
def linksOf (link : O × OperatorTree A O) : List (O × A) :=
  (link.1, link.2.first) :: link.2.rest

@[simp] theorem flatten_first (tree : OperatorTree (OperatorTree A O) O) :
    tree.flatten.first = tree.first.first := by
  induction tree with
  | leaf term => rfl
  | node left operator right ofLeft ofRight => rw [flatten, first, ofLeft, first]

@[simp] theorem flatten_rest (tree : OperatorTree (OperatorTree A O) O) :
    tree.flatten.rest = tree.first.rest ++ tree.rest.flatMap linksOf := by
  induction tree with
  | leaf term => simp [flatten, first, rest]
  | node left operator right ofLeft ofRight =>
      rw [flatten, rest, ofLeft, ofRight, flatten_first, first, rest, List.flatMap_append,
        List.flatMap_cons, linksOf, List.append_assoc, List.cons_append]

theorem flatten_root {tree : OperatorTree (OperatorTree A O) O} {root : O}
    (atRoot : root ∈ tree.flatten.root?) : root ∈ tree.root? ∨ root ∈ tree.first.root? := by
  cases tree with
  | leaf term => exact .inr atRoot
  | node left operator right => exact .inl atRoot

/-- Terms of tight operators under loose ones make one ordered tree. -/
theorem flatten_ordered {tree : OperatorTree (OperatorTree A O) O} (bound : Nat)
    (ordered : tree.Ordered rank) (loose : ∀ link ∈ tree.rest, rank link.1 < bound)
    (tight : ∀ term ∈ tree.leaves, term.Ordered rank ∧ ∀ link ∈ term.rest, bound ≤ rank link.1) :
    tree.flatten.Ordered rank := by
  induction tree with
  | leaf term => exact (tight term (by simp [leaves, first])).1
  | node left operator right knownLeft knownRight =>
      obtain ⟨ofLeft, ofRight, leftRoot, rightRoot⟩ := ordered
      rw [leaves_node] at tight
      have below : rank operator < bound := loose (operator, right.first) (by simp [rest])
      have tightRoot (term : OperatorTree A O) (member : term ∈ left.leaves ++ right.leaves)
          (root : O) (atRoot : root ∈ term.root?) : rank operator < rank root :=
        Nat.lt_of_lt_of_le below (le_root_of_le_rest (tight term member).2 root atRoot)
      refine ⟨knownLeft ofLeft (fun link member => loose link ?_) fun term member => tight term ?_,
        knownRight ofRight (fun link member => loose link ?_) fun term member => tight term ?_,
        fun root atRoot => ?_, fun root atRoot => ?_⟩
      · exact List.mem_append_left _ member
      · exact List.mem_append_left _ member
      · exact List.mem_append_right _ (List.mem_cons_of_mem _ member)
      · exact List.mem_append_right _ member
      · rcases flatten_root atRoot with own | inTerm
        · exact leftRoot root own
        · exact Nat.le_of_lt (tightRoot left.first (by simp [leaves]) root inTerm)
      · rcases flatten_root atRoot with own | inTerm
        · exact rightRoot root own
        · exact tightRoot right.first (by simp [leaves]) root inTerm

end Flattening

end OperatorTree

namespace Operator

/-- Arithmetic operators bind more tightly than all others. -/
theorem isArithmetic_iff (operator : Operator) : operator.isArithmetic ↔ 3 ≤ operator.rank := by
  cases operator <;> decide

end Operator

namespace Condition

open OperatorTree

/-- A term nests arithmetic operators to the right. -/
def IsTerm (term : Term) : Prop :=
  term.NestsRight ∧ ∀ link ∈ term.rest, link.1.isArithmetic = true

/-- Splitting a chain gives terms with other operators between them and keeps the order. -/
theorem splitTerms_spec (value : Atom) (links : List (Operator × Atom)) :
    (splitTerms value links).1.first = value ∧ IsTerm (splitTerms value links).1 ∧
      (∀ other ∈ (splitTerms value links).2, other.1.isArithmetic = false ∧ IsTerm other.2) ∧
      (splitTerms value links).1.rest ++ (splitTerms value links).2.flatMap linksOf = links := by
  induction links generalizing value with
  | nil => exact ⟨rfl, ⟨trivial, by simp [splitTerms, rest]⟩, by simp [splitTerms], rfl⟩
  | cons link links known =>
      obtain ⟨head, ofTerm, ofOthers, order⟩ := known link.2
      rw [splitTerms]
      dsimp only
      cases arithmetic : link.1.isArithmetic with
      | true =>
          simp only [if_true]
          refine ⟨rfl, ⟨ofTerm.1, fun inner member => ?_⟩, ofOthers, ?_⟩
          · rcases List.mem_cons.1 member with rfl | later
            · exact arithmetic
            · exact ofTerm.2 inner later
          · simp [rest, head, order]
      | false =>
          refine ⟨rfl, ⟨trivial, by simp [rest]⟩, ?_, ?_⟩
          · exact List.forall_mem_cons.2 ⟨⟨arithmetic, ofTerm⟩, ofOthers⟩
          · simp [rest, linksOf, head, order]

/-- A chain that is read as terms and conditions makes one ordered tree. -/
theorem ofChain_flatten (value : Atom) (links : List (Operator × Atom)) :
    (ofChain value links).flatten.Ordered Operator.rank ∧
      (ofChain value links).flatten.first = value ∧ (ofChain value links).flatten.rest = links := by
  obtain ⟨head, ofTerm, ofOthers, order⟩ := splitTerms_spec value links
  rw [ofChain]
  dsimp only
  generalize splitTerms value links = split at *
  obtain ⟨term, others⟩ := split
  let settled (other : Operator × Term) : Operator × Term :=
    (other.1, other.2.settle Operator.rank)
  have reads : (OperatorTree.ofChain Operator.rank (term.settle Operator.rank)
        (others.map settled)).first = term.settle Operator.rank ∧
      (OperatorTree.ofChain Operator.rank (term.settle Operator.rank)
        (others.map settled)).rest = others.map settled := by
    simp [OperatorTree.ofChain]
  refine ⟨flatten_ordered 3 (ofChain_ordered _ _) ?_ ?_, ?_, ?_⟩
  · intro link member
    rw [reads.2] at member
    obtain ⟨other, inside, rfl⟩ := List.mem_map.1 member
    have notArithmetic := (ofOthers other inside).1
    apply Nat.lt_of_not_le
    intro tight
    rw [(Operator.isArithmetic_iff other.1).2 tight] at notArithmetic
    cases notArithmetic
  · intro inner member
    rw [leaves, reads.1, reads.2] at member
    have settles (source : Term) (isTerm : IsTerm source) :
        (source.settle Operator.rank).Ordered Operator.rank ∧
          ∀ link ∈ (source.settle Operator.rank).rest, 3 ≤ link.1.rank := by
      refine ⟨settle_ordered isTerm.1, fun link inside => ?_⟩
      rw [settle_rest] at inside
      exact (Operator.isArithmetic_iff link.1).1 (isTerm.2 link inside)
    rcases List.mem_cons.1 member with rfl | later
    · exact settles term ofTerm
    · simp only [List.map_map, List.mem_map] at later
      obtain ⟨other, inside, rfl⟩ := later
      exact settles other.2 (ofOthers other inside).2
  · rw [flatten_first, reads.1, settle_first, head]
  · rw [flatten_rest, reads.1, reads.2, settle_rest, List.flatMap_map]
    have same : (fun other => linksOf (settled other)) = linksOf := by
      funext other
      simp [settled, linksOf]
    rw [same]
    exact order

end Condition

end DiceOdds
