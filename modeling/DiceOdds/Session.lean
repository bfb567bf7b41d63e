import DiceOdds.Expression.Evaluation
import DiceOdds.Statement.Typing

/-!
Sessions run statements one after another. Definitions are kept for the statements that follow, and
a statement that fails changes nothing.
-/

namespace DiceOdds

structure Session where
  scope : Scope
  limits : Limits

/-- A definition is given a type but is not evaluated. -/
inductive Answer where
  | evaluated (expression : Expression) (outcomes : Distribution Value)
  | defined (name : String) (expression : Expression)

namespace Answer

def expression : Answer → Expression
  | .evaluated expression _ => expression
  | .defined _ expression => expression

/-- These are the outcomes of an answer; those of a definition are evaluated now. -/
def outcomes : Answer → Except Fault (Distribution Value)
  | .evaluated _ outcomes => .ok outcomes
  | .defined _ expression => expression.evaluate

end Answer

namespace Session

def start (limits : Limits) : Session :=
  ⟨.empty, limits⟩

/-- This function answers one line. -/
def answer (session : Session) (line : List Char) : Except Failure Answer := do
  let statement ← (Statement.ofSource line).mapError .source
  let expression ← statement.condition.typed session.scope session.limits
  match statement with
  | .expression _ => do
      let outcomes ← expression.evaluate.mapError .calculation
      return .evaluated expression outcomes
  | .definition name _ => return .defined name expression

/-- Only a definition changes the scope. -/
def remember (session : Session) : Except Failure Answer → Session
  | .ok (.defined name expression) => { session with scope := session.scope.define name expression }
  | _ => session

/-- This function answers a line and gives the session for the next one. -/
def run (session : Session) (line : List Char) : Except Failure Answer × Session :=
  let result := session.answer line
  (result, session.remember result)

/-- Lines are run from first to last, and each answer comes with the session that follows it. -/
def runAll (session : Session) : List (List Char) → List (Except Failure Answer × Session)
  | [] => []
  | line :: rest =>
      let outcome := session.run line
      outcome :: outcome.2.runAll rest

end Session

/-- These are the outcomes of a single statement under the standard limits. -/
def outcomesOf (text : List Char) : Except Failure (Distribution Value) := do
  let answer ← (Session.start .standard).answer text
  answer.outcomes.mapError .calculation

end DiceOdds
