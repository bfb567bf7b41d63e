import DiceOdds.Dice.Pool
import DiceOdds.OperatorTree
import DiceOdds.Symbol
import DiceOdds.Text.Braced

/-!
Statements as written, before names and types are looked up. Terms are chains of arithmetic
operators over atoms, and conditions are chains of the other operators over terms. The text of a
statement puts every binary node in parentheses and every group in brackets.
-/

namespace DiceOdds

/-- A component of a vector literal is an integer or a boolean. -/
inductive Literal where
  | integer (number : Int)
  | boolean (truth : Bool)

inductive Atom where
  | integer (number : Int)
  | boolean (truth : Bool)
  | symbol (symbol : Symbol)
  | dice (pool : DicePool)
  | vector (first : Symbol × Literal) (others : List (Symbol × Literal))
  | name (name : String)
  | group (condition : OperatorTree (OperatorTree Atom))

abbrev Term := OperatorTree Atom

abbrev Condition := OperatorTree Term

/-- A definition gives a name to a condition. -/
inductive Statement where
  | expression (condition : Condition)
  | definition (name : String) (condition : Condition)

namespace Literal

def text : Literal → String
  | .integer number => toString number
  | .boolean truth => toString truth

end Literal

def nodeText (left : String) (operator : Operator) (right : String) : String :=
  "(" ++ left ++ " " ++ operator.text ++ " " ++ right ++ ")"

def componentText (component : Symbol × Literal) : String :=
  component.1.text ++ ": " ++ component.2.text

mutual

def Atom.text : Atom → String
  | .integer number => toString number
  | .boolean truth => toString truth
  | .symbol category => category.text
  | .dice pool => pool.text
  | .vector first others => bracedText ((first :: others).map componentText)
  | .name bound => "$" ++ bound
  | .group condition => "[" ++ conditionText condition ++ "]"

def termText : OperatorTree Atom → String
  | .leaf atom => Atom.text atom
  | .node left operator right => nodeText (termText left) operator (termText right)

def conditionText : OperatorTree (OperatorTree Atom) → String
  | .leaf term => termText term
  | .node left operator right => nodeText (conditionText left) operator (conditionText right)

end

namespace Term

def text (term : Term) : String :=
  termText term

end Term

namespace Condition

def text (condition : Condition) : String :=
  conditionText condition

/-- A leading run of arithmetic operators makes a term; what follows is a chain of terms. -/
def splitTerms (first : Atom) : List (Operator × Atom) → Term × List (Operator × Term)
  | [] => (.leaf first, [])
  | (operator, second) :: rest =>
      let (term, others) := splitTerms second rest
      if operator.isArithmetic then (.node (.leaf first) operator term, others)
      else (.leaf first, (operator, term) :: others)

/-- This function reads a chain of atoms with the precedence of its operators. -/
def ofChain (first : Atom) (rest : List (Operator × Atom)) : Condition :=
  let (term, others) := splitTerms first rest
  OperatorTree.ofChain Operator.rank (term.settle Operator.rank)
    (others.map fun other => (other.1, other.2.settle Operator.rank))

end Condition

namespace Statement

def text : Statement → String
  | .expression condition => condition.text
  | .definition name condition => "$" ++ name ++ " := " ++ condition.text

def condition : Statement → Condition
  | .expression condition => condition
  | .definition _ condition => condition

/-- This is the name that a statement defines. -/
def definedName? : Statement → Option String
  | .expression _ => none
  | .definition name _ => some name

end Statement

end DiceOdds
