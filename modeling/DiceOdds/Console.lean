import DiceOdds.Histogram
import DiceOdds.Session
import DiceOdds.Text.Whitespace

/-!
The dialogue with a user. Every line gets its answer, a histogram for an expression and an echo for
a definition, and failures are reported apart from the answers.
-/

namespace DiceOdds

namespace Console

structure Options where
  limits : Limits
  width : Nat
  asTable : Bool
  explained : Bool

namespace Options

def standard : Options :=
  ⟨.standard, Histogram.standardWidth, false, false⟩

/-- The width has no effect on a table. -/
def histogram (options : Options) : Histogram :=
  if options.asTable then .table else .bars options.width

end Options

/-- A response goes to the output and to the reports of failures. -/
structure Response where
  output : String
  report : String

def prompt : String :=
  "> "

/-- The echo of a definition hides conversions even when they are explained. -/
def answerText (options : Options) : Answer → String
  | .evaluated expression outcomes =>
      expression.textWith options.explained ++ "\n" ++ options.histogram.text outcomes
  | .defined name expression => "$" ++ name ++ " := " ++ expression.text ++ "\n"

def responseTo (options : Options) : Except Failure Answer → Response
  | .ok answer => ⟨answerText options answer, ""⟩
  | .error failure => ⟨"", "Error: " ++ failure.message ++ "\n"⟩

/-- A line of white space alone has no answer. -/
def respond (options : Options) (session : Session) (line : List Char) : Response × Session :=
  if line.all isWhitespace then (⟨"", ""⟩, session)
  else
    let (result, next) := session.run line
    (responseTo options result, next)

/-- A line ends at a line break; a carriage return in front of the break belongs to it. -/
def splitLine (text : List Char) : List Char × List Char :=
  let line := text.takeWhile (· != '\n')
  match text.drop line.length with
  | [] => (line, [])
  | _ :: rest =>
      match line.getLast? with
      | some '\r' => (line.dropLast, rest)
      | _ => (line, rest)

/-- Every line is shorter than the text by the rest that follows it. -/
theorem splitLine_length_lt (first : Char) (text : List Char) :
    (splitLine (first :: text)).2.length < (first :: text).length := by
  unfold splitLine
  dsimp only
  split
  · simp
  · next same =>
      have short : ((first :: text).drop ((first :: text).takeWhile (· != '\n')).length).length ≤
          (first :: text).length := by simp
      rw [same] at short
      have below := Nat.lt_of_lt_of_le (Nat.lt_succ_self _) short
      split <;> simpa using below

/-- A last line break ends the last line and starts no other one. -/
def lines (text : List Char) : List (List Char) :=
  match text with
  | [] => []
  | first :: rest => (splitLine (first :: rest)).1 :: lines (splitLine (first :: rest)).2
termination_by text.length
decreasing_by exact splitLine_length_lt first rest

/-- The prompt is shown again after every line. -/
def dialogue (options : Options) (session : Session) : List (List Char) → Response
  | [] => ⟨"\n", ""⟩
  | line :: rest =>
      let (response, next) := respond options session line
      let later := dialogue options next rest
      ⟨response.output ++ prompt ++ later.output, response.report ++ later.report⟩

/-- This is everything that is shown for an input. -/
def transcript (options : Options) (input : List Char) : Response :=
  let shown := dialogue options (.start options.limits) (lines input)
  ⟨prompt ++ shown.output, shown.report⟩

end Console

end DiceOdds
