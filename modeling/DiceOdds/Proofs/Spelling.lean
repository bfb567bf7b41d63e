import DiceOdds.Proofs.Precedence
import DiceOdds.Statement.Source

/-
This file says which tokens spell a tree of operators, with the groups inside of it. A text that is
read as a statement spells one tree only that gives every operator its precedence.
-/

namespace DiceOdds

/-- An operand is an atom whose groups hold trees of operands, without terms inside of conditions.
-/
inductive Operand where
  | integer (number : Int)
  | boolean (truth : Bool)
  | symbol (symbol : Symbol)
  | dice (pool : DicePool)
  | vector (first : Symbol × Literal) (others : List (Symbol × Literal))
  | name (name : String)
  | group (tree : OperatorTree Operand)

mutual

/-- This function forgets the difference of terms and conditions inside of groups. -/
def Atom.forget : Atom → Operand
  | .integer number => .integer number
  | .boolean truth => .boolean truth
  | .symbol category => .symbol category
  | .dice pool => .dice pool
  | .vector first others => .vector first others
  | .name bound => .name bound
  | .group condition => .group (forgetCondition condition)

def forgetTerm : OperatorTree Atom → OperatorTree Operand
  | .leaf atom => .leaf (Atom.forget atom)
  | .node left operator right => .node (forgetTerm left) operator (forgetTerm right)

def forgetCondition : OperatorTree (OperatorTree Atom) → OperatorTree Operand
  | .leaf term => forgetTerm term
  | .node left operator right => .node (forgetCondition left) operator (forgetCondition right)

end

/-- This is a condition as one tree of operands. -/
def Condition.forget (condition : Condition) : OperatorTree Operand :=
  forgetCondition condition

/-- This function forgets inside of the operands that follow an operator. -/
def forgetLink (link : Operator × Atom) : Operator × Operand :=
  (link.1, link.2.forget)

theorem forgetTerm_first (term : Term) : (forgetTerm term).first = term.first.forget := by
  induction term with
  | leaf atom => rfl
  | node left operator right ofLeft ofRight => exact ofLeft

theorem forgetTerm_rest (term : Term) : (forgetTerm term).rest = term.rest.map forgetLink := by
  induction term with
  | leaf atom => rfl
  | node left operator right ofLeft ofRight =>
      rw [forgetTerm, OperatorTree.rest, OperatorTree.rest, ofLeft, ofRight, forgetTerm_first,
        List.map_append, List.map_cons, forgetLink]

theorem forgetTerm_root (term : Term) : (forgetTerm term).root? = term.root? := by
  cases term <;> rfl

theorem forgetTerm_ordered {rank : Operator → Nat} {term : Term} (ordered : term.Ordered rank) :
    (forgetTerm term).Ordered rank := by
  induction term with
  | leaf atom => trivial
  | node left operator right ofLeft ofRight =>
      obtain ⟨leftOrdered, rightOrdered, leftRoot, rightRoot⟩ := ordered
      refine ⟨ofLeft leftOrdered, ofRight rightOrdered, ?_, ?_⟩
      · rw [forgetTerm_root]
        exact leftRoot
      · rw [forgetTerm_root]
        exact rightRoot

theorem Condition.forget_eq (condition : Condition) :
    condition.forget = forgetTerm condition.flatten := by
  induction condition with
  | leaf term => rfl
  | node left operator right ofLeft ofRight =>
      change OperatorTree.node (Condition.forget left) operator (Condition.forget right) = _
      rw [ofLeft, ofRight]
      rfl

/-- A chain that is read as a condition makes one ordered tree with the operands of the chain. -/
theorem Condition.forget_ofChain (value : Atom) (links : List (Operator × Atom)) :
    (Condition.ofChain value links).forget.Ordered Operator.rank ∧
      (Condition.ofChain value links).forget.first = value.forget ∧
      (Condition.ofChain value links).forget.rest = links.map forgetLink := by
  obtain ⟨ordered, head, tail⟩ := Condition.ofChain_flatten value links
  rw [Condition.forget_eq, forgetTerm_first, forgetTerm_rest, head, tail]
  exact ⟨forgetTerm_ordered ordered, rfl, rfl⟩

/-- A standard operand has ordered trees in all its groups. -/
inductive Operand.Standard : Operand → Prop where
  | single {operand : Operand} (noGroup : ∀ tree, operand ≠ .group tree) : Standard operand
  | group {tree : OperatorTree Operand} (ordered : tree.Ordered Operator.rank)
      (inner : ∀ operand ∈ tree.leaves, Standard operand) : Standard (.group tree)

/-- A standard tree gives every operator its precedence, inside of groups as well. -/
structure OperatorTree.Standard (tree : OperatorTree Operand) : Prop where
  ordered : tree.Ordered Operator.rank
  inner : ∀ operand ∈ tree.leaves, operand.Standard

/-- This is the token of a literal in a vector. -/
def Literal.token : Literal → Token
  | .integer number => .integer number
  | .boolean truth => .boolean truth

/-- A component is spelled with a colon, or with a boolean that the colon has marked. -/
inductive SpellsComponent : List Token → Symbol × Literal → Prop where
  | separate (dimension : Symbol) (literal : Literal) :
      SpellsComponent [.symbol dimension, .colon, literal.token] (dimension, literal)
  | marked (dimension : Symbol) (truth : Bool) :
      SpellsComponent [.symbol dimension, .symbol ⟨toString truth, .colon⟩]
        (dimension, .boolean truth)

/-- Components are separated by commas. -/
inductive SpellsComponents : List Token → List (Symbol × Literal) → Prop where
  | one {tokens : List Token} {component : Symbol × Literal}
      (spells : SpellsComponent tokens component) : SpellsComponents tokens [component]
  | next {tokens more : List Token} {components : List (Symbol × Literal)}
      {component : Symbol × Literal} (before : SpellsComponents tokens components)
      (spells : SpellsComponent more component) :
      SpellsComponents (tokens ++ .comma :: more) (components ++ [component])

mutual

/-- These tokens spell a single operand. -/
inductive SpellsOperand : List Token → Operand → Prop where
  | integer (number : Int) : SpellsOperand [.integer number] (.integer number)
  | boolean (truth : Bool) : SpellsOperand [.boolean truth] (.boolean truth)
  | symbol (category : Symbol) : SpellsOperand [.symbol category] (.symbol category)
  | dice (pool : DicePool) : SpellsOperand [.dice pool] (.dice pool)
  | name (bound : String) : SpellsOperand [.name bound] (.name bound)
  | vector {tokens : List Token} {first : Symbol × Literal} {others : List (Symbol × Literal)}
      (components : SpellsComponents tokens (first :: others)) :
      SpellsOperand (.leftBrace :: (tokens ++ [.rightBrace])) (.vector first others)
  | group {tokens : List Token} {tree : OperatorTree Operand}
      (inner : SpellsSequence tokens tree.first tree.rest) :
      SpellsOperand (.leftParen :: (tokens ++ [.rightParen])) (.group tree)

/-- These tokens spell operands with operators between them. -/
inductive SpellsSequence : List Token → Operand → List (Operator × Operand) → Prop where
  | last {tokens : List Token} {operand : Operand} (spells : SpellsOperand tokens operand) :
      SpellsSequence tokens operand []
  | next {tokens more : List Token} {operand second : Operand} {operator : Operator}
      {links : List (Operator × Operand)} (spells : SpellsOperand tokens operand)
      (rest : SpellsSequence more second links) :
      SpellsSequence (tokens ++ .operator operator :: more) operand ((operator, second) :: links)

end

/-- A tree is spelled by its operands and operators in order. -/
def SpellsTree (tokens : List Token) (tree : OperatorTree Operand) : Prop :=
  SpellsSequence tokens tree.first tree.rest

end DiceOdds
