import DiceOdds.Console

/-!
The options of a dialogue as arguments of a program. The value of an option is either the next
argument or stands behind an equals sign.
-/

namespace DiceOdds

namespace Console

/-- These options have a number as their value. -/
inductive Setting where
  | dice
  | faces
  | rolls
  | width
  deriving DecidableEq

namespace Setting

def all : List Setting :=
  [.dice, .faces, .rolls, .width]

def text : Setting → String
  | .dice => "--max-dice"
  | .faces => "--max-faces"
  | .rolls => "--max-keep-states"
  | .width => "--width"

/-- Roll counts have twice as many bits as the other numbers. -/
def greatest : Setting → Nat
  | .rolls => greatestRollCount
  | .dice | .faces | .width => 18446744073709551615

/-- This function reads the value of a setting, which has digits alone. -/
def value? (setting : Setting) (text : List Char) : Option Nat :=
  if text.isEmpty || !text.all Char.isDigit then none
  else
    let number := text.foldl (fun sum digit => sum * 10 + Numeral.digitValue digit) 0
    if number ≤ setting.greatest then some number else none

def assign (setting : Setting) (number : Nat) (options : Options) : Options :=
  match setting with
  | .dice => { options with limits := { options.limits with dice := some number } }
  | .faces => { options with limits := { options.limits with faces := some number } }
  | .rolls => { options with limits := { options.limits with rolls := some number } }
  | .width => { options with width := number }

end Setting

namespace Options

/-- An argument with an equals sign counts as two. -/
def splitArgument (argument : List Char) : List (List Char) :=
  match argument.dropWhile (· != '=') with
  | [] => [argument]
  | _ :: value => [argument.takeWhile (· != '='), value]

/-- These options have no value. -/
def switch? (options : Options) (name : List Char) : Option Options :=
  if name == "--markdown".toList then some { options with asTable := true }
  else if name == "--explain".toList then some { options with explained := true }
  else none

def assign? (options : Options) (name value : List Char) : Option Options := do
  let setting ← Setting.all.find? fun setting => setting.text.toList == name
  return setting.assign (← setting.value? value) options

/-- This function reads arguments from first to last, starting from given options. -/
def readArguments (options : Options) : List (List Char) → Option Options
  | [] => some options
  | name :: rest =>
      match options.switch? name with
      | some switched => switched.readArguments rest
      | none =>
          match rest with
          | [] => none
          | value :: others =>
              (options.assign? name value).bind fun assigned => assigned.readArguments others

def ofArguments? (arguments : List String) : Option Options :=
  standard.readArguments (arguments.flatMap fun argument => splitArgument argument.toList)

end Options

/-- This text lists the options. -/
def usage : String :=
  "options: --max-dice NUMBER, --max-faces NUMBER, --max-keep-states NUMBER, --width NUMBER, " ++
    "--markdown, --explain"

end Console

end DiceOdds
