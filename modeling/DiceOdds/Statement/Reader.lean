import DiceOdds.Statement
import DiceOdds.Token

/-!
Reading statements from tokens. The reader is an automaton with a stack: its state says what may
come next, and one step takes one token. A text is refused at the first token that no step takes.
-/

namespace DiceOdds

/-- These are the things that a reader names when it expected something else. -/
inductive Expectation where
  | token (kind : TokenKind)
  | anyOperator
  | endOfInput
  deriving DecidableEq

def Expectation.text : Expectation → String
  | .token kind => kind.text
  | .anyOperator => "an operator"
  | .endOfInput => "end of input"

/-- A chain that is still open holds its atoms and operators, the latest first. -/
abbrev OpenChain := List (Atom × Operator)

/-- This function closes a chain with its last atom. -/
def OpenChain.close (chain : OpenChain) (last : Atom) : Condition :=
  let closed := chain.foldl
    (fun (rest : Atom × List (Operator × Atom)) link => (link.1, (link.2, rest.1) :: rest.2))
    (last, [])
  Condition.ofChain closed.1 closed.2

/-- The next token belongs to one of these places. -/
inductive ReaderPlace where
  | operand
  | afterAtom (atom : Atom)
  | dimension (components : List (Symbol × Literal))
  | afterDimension (components : List (Symbol × Literal)) (dimension : Symbol)
  | component (components : List (Symbol × Literal)) (dimension : Symbol)
  | afterComponent (first : Symbol × Literal) (others : List (Symbol × Literal))

/-- The state of a reader holds the chains around every open group, the innermost first. -/
structure Reader where
  enclosing : List OpenChain
  chain : OpenChain
  place : ReaderPlace

namespace ReaderPlace

/-- A vector literal has at least one component. -/
def ofComponents (components : List (Symbol × Literal)) (last : Symbol × Literal) : ReaderPlace :=
  match components with
  | [] => .afterComponent last []
  | first :: others => .afterComponent first (others ++ [last])

end ReaderPlace

namespace Reader

def start : Reader :=
  ⟨[], [], .operand⟩

/-- These tokens make an atom by themselves. -/
def atom? : Token → Option Atom
  | .integer number => some (.integer number)
  | .dice pool => some (.dice pool)
  | .symbol symbol => some (.symbol symbol)
  | .name name => some (.name name)
  | .boolean truth => some (.boolean truth)
  | _ => none

def literal? : Token → Option Literal
  | .integer number => some (.integer number)
  | .boolean truth => some (.boolean truth)
  | _ => none

/-- A colon directly in front of true or false reads as the mark of a symbol. -/
def markedLiteral? (symbol : Symbol) : Option Literal :=
  match symbol.mark with
  | .tick => none
  | .colon =>
      if symbol.name == "true" then some (.boolean true)
      else if symbol.name == "false" then some (.boolean false)
      else none

/-- One step takes one token, if it may come here. -/
def step? (reader : Reader) (token : Token) : Option Reader :=
  match reader.place, token with
  | .operand, .leftParen => some ⟨reader.chain :: reader.enclosing, [], .operand⟩
  | .operand, .leftBrace => some { reader with place := .dimension [] }
  | .operand, _ => (atom? token).map fun atom => { reader with place := .afterAtom atom }
  | .afterAtom atom, .operator operator =>
      some { reader with chain := (atom, operator) :: reader.chain, place := .operand }
  | .afterAtom atom, .rightParen =>
      match reader.enclosing with
      | [] => none
      | outer :: enclosing => some ⟨enclosing, outer, .afterAtom (.group (reader.chain.close atom))⟩
  | .dimension components, .symbol symbol =>
      some { reader with place := .afterDimension components symbol }
  | .afterDimension components dimension, .colon =>
      some { reader with place := .component components dimension }
  | .afterDimension components dimension, .symbol symbol =>
      (markedLiteral? symbol).map fun literal =>
        { reader with place := .ofComponents components (dimension, literal) }
  | .component components dimension, _ =>
      (literal? token).map fun literal =>
        { reader with place := .ofComponents components (dimension, literal) }
  | .afterComponent first others, .comma =>
      some { reader with place := .dimension (first :: others) }
  | .afterComponent first others, .rightBrace =>
      some { reader with place := .afterAtom (.vector first others) }
  | _, _ => none

/-- This list names what may come here. -/
def expected (reader : Reader) : List Expectation :=
  match reader.place with
  | .operand =>
      [.token .integer, .token .dice, .token .symbol, .token .name, .token (.boolean true),
        .token (.boolean false), .token .leftParen, .token .leftBrace]
  | .afterAtom _ =>
      match reader.enclosing with
      | [] => [.anyOperator, .endOfInput]
      | _ :: _ => [.token .rightParen]
  | .dimension _ => [.token .symbol]
  | .afterDimension _ _ => [.token .colon]
  | .component _ _ => [.token .integer, .token (.boolean true), .token (.boolean false)]
  | .afterComponent _ _ => [.token .rightBrace]

/-- A text is complete when an atom has just ended outside of every group. -/
def finish? (reader : Reader) : Option Condition :=
  match reader.enclosing, reader.place with
  | [], .afterAtom atom => some (reader.chain.close atom)
  | _, _ => none

end Reader

/-- An obstacle holds the tokens that are left and what was expected instead of the first one. -/
structure Obstacle where
  rest : List Token
  expected : List Expectation

/-- This function reads tokens until the end or an obstacle. -/
def Reader.read (reader : Reader) : List Token → Except Obstacle Condition
  | [] =>
      match reader.finish? with
      | some condition => .ok condition
      | none => .error ⟨[], reader.expected⟩
  | token :: rest =>
      match reader.step? token with
      | some next => next.read rest
      | none => .error ⟨token :: rest, reader.expected⟩

/-- A name and a definition sign in front make a definition. -/
def Statement.read : List Token → Except Obstacle Statement
  | .name name :: .define :: rest => (Reader.start.read rest).map (.definition name)
  | tokens => (Reader.start.read tokens).map .expression

end DiceOdds
