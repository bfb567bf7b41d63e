import DiceOdds.Proofs.Precedence

/-
This file turns trees of operators one node at a time. Turns in any order come to an end, and they
all end in the settled tree, which a driver finds that settles children first.
-/

namespace DiceOdds

namespace OperatorTree

variable {A O : Type} {rank : O → Nat}

/-- One step turns the root of a tree or a node below it. -/
inductive Turns (rank : O → Nat) : OperatorTree A O → OperatorTree A O → Prop where
  | root {tree next : OperatorTree A O} (turned : tree.turn? rank = some next) :
      Turns rank tree next
  | left {left next : OperatorTree A O} (turns : Turns rank left next) (operator : O)
      (right : OperatorTree A O) :
      Turns rank (.node left operator right) (.node next operator right)
  | right (left : OperatorTree A O) (operator : O) {right next : OperatorTree A O}
      (turns : Turns rank right next) :
      Turns rank (.node left operator right) (.node left operator next)

/-- No node of a settled tree can be turned. -/
def Settled (rank : O → Nat) (tree : OperatorTree A O) : Prop :=
  ∀ next, ¬tree.Turns rank next

theorem turn?_eq_some {tree next : OperatorTree A O} (turned : tree.turn? rank = some next) :
    ∃ left outer middle inner right, tree = .node left outer (.node middle inner right) ∧
      rank inner ≤ rank outer ∧ next = .node (.node left outer middle) inner right := by
  unfold turn? at turned
  split at turned
  · next left outer middle inner right =>
      split at turned
      · next looser =>
          cases turned
          exact ⟨left, outer, middle, inner, right, rfl, looser, rfl⟩
      · cases turned
  · cases turned

theorem turn?_of_le {outer inner : O} (looser : rank inner ≤ rank outer)
    (left middle right : OperatorTree A O) :
    (node left outer (.node middle inner right)).turn? rank =
      some (.node (.node left outer middle) inner right) :=
  if_pos looser

theorem settled_leaf (value : A) : (leaf value : OperatorTree A O).Settled rank := by
  intro next turns
  cases turns with
  | root turned => cases turned

theorem settled_node_iff {left right : OperatorTree A O} {operator : O} :
    (node left operator right).Settled rank ↔ left.Settled rank ∧ right.Settled rank ∧
      ∀ inner ∈ right.root?, rank operator < rank inner := by
  constructor
  · intro settled
    refine ⟨fun next turns => settled _ (.left turns operator right),
      fun next turns => settled _ (.right left operator turns), fun inner atRoot => ?_⟩
    cases right with
    | leaf value => cases atRoot
    | node middle found right =>
        cases atRoot
        apply Nat.lt_of_not_le
        intro looser
        exact settled _ (.root (turn?_of_le looser left middle right))
  · rintro ⟨ofLeft, ofRight, tighter⟩ next turns
    cases turns with
    | root turned =>
        obtain ⟨_, _, middle, inner, _, same, looser, -⟩ := turn?_eq_some turned
        cases same
        exact Nat.not_lt.2 looser (tighter inner rfl)
    | left turns => exact ofLeft _ turns
    | right left operator turns => exact ofRight _ turns

section Termination

/-- Turns keep the leaves and the operators in their order. -/
theorem Turns.reads {tree next : OperatorTree A O} (turns : tree.Turns rank next) :
    next.first = tree.first ∧ next.rest = tree.rest := by
  induction turns with
  | root turned =>
      obtain ⟨left, outer, middle, inner, right, rfl, -, rfl⟩ := turn?_eq_some turned
      simp [first, rest]
  | left turns operator right known => simp [first, rest, known]
  | right left operator turns known => simp [first, rest, known]

/-- The weight of a tree counts every operator once for each node that has it on its right. -/
def weight : OperatorTree A O → Nat
  | .leaf _ => 0
  | .node left _ right => left.weight + right.weight + right.rest.length

/-- A turn takes an operator from the right of the node, so that the tree loses weight. -/
theorem Turns.weight_lt {tree next : OperatorTree A O} (turns : tree.Turns rank next) :
    next.weight < tree.weight := by
  induction turns with
  | root turned =>
      obtain ⟨left, outer, middle, inner, right, rfl, -, rfl⟩ := turn?_eq_some turned
      simp only [weight, rest, List.length_append, List.length_cons]
      omega
  | left turns operator right known =>
      simp only [weight]
      omega
  | right left operator turns known =>
      simp only [weight, turns.reads.2]
      omega

/-- There is no endless sequence of turns. -/
theorem not_exists_endless_turns (rank : O → Nat) :
    ¬∃ trees : Nat → OperatorTree A O, ∀ index, (trees index).Turns rank (trees (index + 1)) := by
  rintro ⟨trees, turns⟩
  have descends : StrictAnti fun index => (trees index).weight :=
    strictAnti_nat_of_succ_lt fun index => (turns index).weight_lt
  exact not_strictAnti_of_wellFoundedLT _ descends

end Termination

section Confluence

/-- A chain of three can be attached from either side when its second operator is not tighter. -/
theorem attach_attach {outer inner : O} (looser : rank inner ≤ rank outer)
    (left middle right : OperatorTree A O) :
    attach rank left outer (attach rank middle inner right) =
      attach rank (attach rank left outer middle) inner right := by
  -- The spine of the right tree moves over; its own operators are loose enough where it does.
  induction right generalizing middle inner with
  | leaf value => exact if_pos looser
  | node second later right ofSecond ofRight =>
      by_cases moves : rank later ≤ rank inner
      · calc
          _ = attach rank left outer
                (attach rank (attach rank middle inner second) later right) := by
              rw [attach.eq_2 rank middle, if_pos moves]
          _ = attach rank (attach rank left outer (attach rank middle inner second)) later right :=
              ofRight (Nat.le_trans moves looser) _
          _ = attach rank
                (attach rank (attach rank left outer middle) inner second) later right := by
              rw [ofSecond looser]
          _ = _ := by rw [attach.eq_2 rank _ inner, if_pos moves]
      · rw [attach.eq_2 rank middle, if_neg moves, attach, if_pos looser]

/-- Turns do not change what a tree settles to. -/
theorem Turns.settle_eq {tree next : OperatorTree A O} (turns : tree.Turns rank next) :
    next.settle rank = tree.settle rank := by
  induction turns with
  | root turned =>
      obtain ⟨left, outer, middle, inner, right, rfl, looser, rfl⟩ := turn?_eq_some turned
      simp only [settle]
      exact (attach_attach looser _ _ _).symm
  | left turns operator right known => rw [settle, settle, known]
  | right left operator turns known => rw [settle, settle, known]

theorem Settled.turn?_eq_none {tree : OperatorTree A O} (settled : tree.Settled rank) :
    tree.turn? rank = none := by
  apply Option.eq_none_iff_forall_ne_some.2
  intro next turned
  exact settled next (.root turned)

/-- A root that cannot be turned stays where it is. -/
theorem attach_of_turn?_eq_none {left right : OperatorTree A O} {operator : O}
    (still : (node left operator right).turn? rank = none) :
    attach rank left operator right = node left operator right := by
  cases right with
  | leaf value => rfl
  | node middle inner right =>
      apply if_neg
      intro looser
      cases (turn?_of_le looser left middle right).symm.trans still

/-- A settled tree settles to itself. -/
theorem Settled.settle_eq {tree : OperatorTree A O} (settled : tree.Settled rank) :
    tree.settle rank = tree := by
  induction tree with
  | leaf value => rfl
  | node left operator right ofLeft ofRight =>
      obtain ⟨leftSettled, rightSettled, -⟩ := settled_node_iff.1 settled
      rw [settle, ofLeft leftSettled, ofRight rightSettled,
        attach_of_turn?_eq_none settled.turn?_eq_none]

theorem settled_attach {left right : OperatorTree A O} (operator : O) (ofLeft : left.Settled rank)
    (ofRight : right.Settled rank) : (attach rank left operator right).Settled rank := by
  induction right generalizing left operator with
  | leaf value => exact settled_node_iff.2 ⟨ofLeft, ofRight, by simp [root?]⟩
  | node middle inner right ofMiddle known =>
      obtain ⟨middleSettled, rightSettled, -⟩ := settled_node_iff.1 ofRight
      rw [attach]
      split
      · exact known inner (ofMiddle operator ofLeft middleSettled) rightSettled
      · next tighter =>
          refine settled_node_iff.2 ⟨ofLeft, ofRight, fun found atRoot => ?_⟩
          cases atRoot
          exact Nat.lt_of_not_le tighter

theorem settled_settle (rank : O → Nat) (tree : OperatorTree A O) :
    (tree.settle rank).Settled rank := by
  induction tree with
  | leaf value => exact settled_leaf value
  | node left operator right ofLeft ofRight => exact settled_attach operator ofLeft ofRight

open Relation

/-- Turns below a node are turns of the tree. -/
theorem turns_node {left otherLeft right otherRight : OperatorTree A O} (operator : O)
    (ofLeft : ReflTransGen (Turns rank) left otherLeft)
    (ofRight : ReflTransGen (Turns rank) right otherRight) :
    ReflTransGen (Turns rank) (node left operator right) (node otherLeft operator otherRight) := by
  have first : ReflTransGen (Turns rank) (node left operator right)
      (node otherLeft operator right) :=
    ofLeft.lift (fun tree => node tree operator right) fun _ _ turns => .left turns operator right
  have second : ReflTransGen (Turns rank) (node otherLeft operator right)
      (node otherLeft operator otherRight) :=
    ofRight.lift (fun tree => node otherLeft operator tree) fun _ _ turns =>
      .right otherLeft operator turns
  exact first.trans second

/-- Attaching is a sequence of turns. -/
theorem turns_attach (left : OperatorTree A O) (operator : O) (right : OperatorTree A O) :
    ReflTransGen (Turns rank) (node left operator right) (attach rank left operator right) := by
  induction right generalizing left operator with
  | leaf value => exact .refl
  | node middle inner right ofMiddle ofRight =>
      rw [attach]
      split
      · next looser =>
          have turned := Turns.root (turn?_of_le looser left middle right)
          have inside := turns_node inner (ofMiddle left operator) (.refl (a := right))
          exact .head turned (inside.trans (ofRight _ inner))
      · exact .refl

theorem turns_settle (rank : O → Nat) (tree : OperatorTree A O) :
    ReflTransGen (Turns rank) tree (tree.settle rank) := by
  induction tree with
  | leaf value => exact .refl
  | node left operator right ofLeft ofRight =>
      exact (turns_node operator ofLeft ofRight).trans (turns_attach _ operator _)

theorem settle_eq_of_turns {tree last : OperatorTree A O}
    (turns : ReflTransGen (Turns rank) tree last) : last.settle rank = tree.settle rank := by
  induction turns with
  | refl => rfl
  | tail earlier turn known => exact turn.settle_eq.trans known

/-- Turns end at one tree only. -/
theorem turns_settled_iff {tree last : OperatorTree A O} :
    ReflTransGen (Turns rank) tree last ∧ last.Settled rank ↔ last = tree.settle rank := by
  constructor
  · rintro ⟨turns, settled⟩
    rw [← settle_eq_of_turns turns, settled.settle_eq]
  · rintro rfl
    exact ⟨turns_settle rank tree, settled_settle rank tree⟩

end Confluence

section Driver

mutual

/-- The driver settles the children of a node before it turns the node. -/
inductive Drives (rank : O → Nat) : OperatorTree A O → OperatorTree A O → Prop where
  | leaf (value : A) : Drives rank (.leaf value) (.leaf value)
  | node {left right leftDriven rightDriven last : OperatorTree A O} {operator : O}
      (ofLeft : Drives rank left leftDriven) (ofRight : Drives rank right rightDriven)
      (loops : DrivesRoot rank (.node leftDriven operator rightDriven) last) :
      Drives rank (.node left operator right) last

/-- The root is turned as long as this is possible, and each turn makes a new left child, which is
driven once more. -/
inductive DrivesRoot (rank : O → Nat) : OperatorTree A O → OperatorTree A O → Prop where
  | done {tree : OperatorTree A O} (still : tree.turn? rank = none) : DrivesRoot rank tree tree
  | turned {tree left right leftDriven last : OperatorTree A O} {operator : O}
      (turned : tree.turn? rank = some (.node left operator right))
      (ofLeft : Drives rank left leftDriven)
      (loops : DrivesRoot rank (.node leftDriven operator right) last) : DrivesRoot rank tree last

end

theorem Settled.drives {tree : OperatorTree A O} (settled : tree.Settled rank) :
    Drives rank tree tree := by
  induction tree with
  | leaf value => exact .leaf value
  | node left operator right ofLeft ofRight =>
      obtain ⟨leftSettled, rightSettled, -⟩ := settled_node_iff.1 settled
      exact .node (ofLeft leftSettled) (ofRight rightSettled) (.done settled.turn?_eq_none)

/-- Between settled children the loop at the root attaches the right one. -/
theorem drivesRoot_attach {left right : OperatorTree A O} (operator : O)
    (ofLeft : left.Settled rank) (ofRight : right.Settled rank) :
    DrivesRoot rank (node left operator right) (attach rank left operator right) := by
  induction right generalizing left operator with
  | leaf value => exact .done rfl
  | node middle inner right ofMiddle known =>
      obtain ⟨middleSettled, rightSettled, -⟩ := settled_node_iff.1 ofRight
      rw [attach]
      split
      · next looser =>
          have attached := settled_attach operator ofLeft middleSettled
          have inside := Drives.node ofLeft.drives middleSettled.drives
            (ofMiddle operator ofLeft middleSettled)
          exact .turned (turn?_of_le looser left middle right) inside
            (known inner attached rightSettled)
      · next tighter => exact .done (if_neg tighter)

theorem drives_settle (rank : O → Nat) (tree : OperatorTree A O) :
    Drives rank tree (tree.settle rank) := by
  induction tree with
  | leaf value => exact .leaf value
  | node left operator right ofLeft ofRight =>
      exact .node ofLeft ofRight
        (drivesRoot_attach operator (settled_settle rank left) (settled_settle rank right))

mutual

/-- The driver has one result only. -/
theorem Drives.eq_settle {tree last : OperatorTree A O} :
    Drives rank tree last → last = tree.settle rank
  | .leaf value => rfl
  | .node ofLeft ofRight loops => by
      have ended := loops.eq_attach rfl
      rw [ofLeft.eq_settle, ofRight.eq_settle] at ended
      exact ended (settled_settle rank _) (settled_settle rank _)

theorem DrivesRoot.eq_attach {tree last left right : OperatorTree A O} {operator : O} :
    DrivesRoot rank tree last → tree = .node left operator right → left.Settled rank →
      right.Settled rank → last = attach rank left operator right
  | .done still, same, _, _ => by
      subst same
      exact (attach_of_turn?_eq_none still).symm
  | .turned turned inside loops, same, ofLeft, ofRight => by
      have ended := loops.eq_attach rfl
      rw [inside.eq_settle] at ended
      obtain ⟨_, _, middle, inner, _, split, looser, next⟩ := turn?_eq_some turned
      cases same.symm.trans split
      cases next
      obtain ⟨middleSettled, rightSettled, -⟩ := settled_node_iff.1 ofRight
      have attached : (node left operator middle).settle rank =
          attach rank left operator middle := by
        rw [settle, ofLeft.settle_eq, middleSettled.settle_eq]
      rw [ended (settled_settle rank _) rightSettled, attached]
      exact (if_pos looser).symm

end

theorem drives_iff {tree last : OperatorTree A O} :
    Drives rank tree last ↔ last = tree.settle rank := by
  constructor
  · exact Drives.eq_settle
  · rintro rfl
    exact drives_settle rank tree

end Driver

/-- Turns have unique normal forms. No tree can be turned endlessly, and whatever nodes are turned
in whatever order, the turns end in the settled tree, which the driver finds. It has the leaves and
the operators in their order, no node of it can be turned, and it settles to itself. -/
theorem settle_normal_form (rank : O → Nat) (tree : OperatorTree A O) :
    (¬∃ trees : Nat → OperatorTree A O, trees 0 = tree ∧
      ∀ index, (trees index).Turns rank (trees (index + 1))) ∧
    (∀ last, Relation.ReflTransGen (Turns rank) tree last ∧ last.Settled rank ↔
      last = tree.settle rank) ∧
    (∀ last, Drives rank tree last ↔ last = tree.settle rank) ∧
    (tree.settle rank).first = tree.first ∧ (tree.settle rank).rest = tree.rest ∧
    (tree.settle rank).Settled rank ∧ (tree.settle rank).settle rank = tree.settle rank := by
  refine ⟨?_, fun last => turns_settled_iff, fun last => drives_iff, settle_first tree,
    settle_rest tree, settled_settle rank tree, (settled_settle rank tree).settle_eq⟩
  rintro ⟨trees, -, turns⟩
  exact not_exists_endless_turns rank ⟨trees, turns⟩

end OperatorTree

end DiceOdds
