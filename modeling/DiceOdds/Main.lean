import DiceOdds.Console.Arguments

/-!
The program that holds the dialogue on the standard streams.
-/

namespace DiceOdds

namespace Console

/-- The dialogue ends with the input. -/
partial def hold (options : Options) (session : Session) (input output report : IO.FS.Stream) :
    IO Unit := do
  output.putStr prompt
  output.flush
  let text ← input.getLine
  if text.isEmpty then
    output.putStr "\n"
    output.flush
  else
    let (response, next) := respond options session (splitLine text.toList).1
    output.putStr response.output
    output.flush
    report.putStr response.report
    report.flush
    hold options next input output report

end Console

end DiceOdds

open DiceOdds in
def main (arguments : List String) : IO UInt32 := do
  let report ← IO.getStderr
  match Console.Options.ofArguments? arguments with
  | none =>
      report.putStrLn Console.usage
      return 2
  | some options =>
      Console.hold options (.start options.limits) (← IO.getStdin) (← IO.getStdout) report
      return 0
