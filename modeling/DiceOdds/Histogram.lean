import DiceOdds.Distribution.Summary
import DiceOdds.Double.Places
import DiceOdds.Value

/-!
Histograms of distributions, as bars of number signs or as a table. Both show each probability as a
percentage with two decimal places.
-/

namespace DiceOdds

/-- The bar of the likeliest outcome has the full width. -/
inductive Histogram where
  | bars (width : Nat)
  | table

namespace Histogram

/-- Bars have this width where no other is given. -/
def standardWidth : Nat :=
  50

def percentText (probability : Rat) : String :=
  twoPlaces (nearestDouble probability * 100.0)

/-- This function puts blanks in front of a text that is shorter than the width. -/
def alignRight (width : Nat) (text : String) : String :=
  String.ofList (List.replicate (width - text.length) ' ') ++ text

/-- A bar is never longer than the width; half a sign counts as a whole one. -/
def barLength (width : Nat) (fraction : Float) : Nat :=
  min (fraction * nearestDouble (width : Rat)).round.toUInt64.toNat width

def bar (width : Nat) (greatest probability : Float) : String :=
  let fraction := if 0.0 < greatest then probability / greatest else 0.0
  String.ofList (List.replicate (barLength width fraction) '#')

/-- A line without a bar ends at the percent sign. -/
def barLine (width labelWidth : Nat) (greatest : Float) (event : Event Value) : String :=
  let shown := alignRight labelWidth event.value.text ++ " " ++
    alignRight 7 (percentText event.probability) ++ "%"
  let drawn := bar width greatest (nearestDouble event.probability)
  if drawn.isEmpty then shown ++ "\n" else shown ++ " " ++ drawn ++ "\n"

def barsText (width : Nat) (outcomes : Distribution Value) : String :=
  let labelWidth := (outcomes.values.map fun value => value.text.length).foldl max 0
  let greatest := nearestDouble outcomes.greatest
  String.join (outcomes.events.map (barLine width labelWidth greatest))

def tableLine (event : Event Value) : String :=
  "| `" ++ event.value.text ++ "` | " ++ probabilityText event.probability ++ " | " ++
    percentText event.probability ++ "% |\n"

def tableText (outcomes : Distribution Value) : String :=
  "| Outcome | Probability | % |\n|---|---|---:|\n" ++
    String.join (outcomes.events.map tableLine)

def text (histogram : Histogram) (outcomes : Distribution Value) : String :=
  match histogram with
  | .bars width => barsText width outcomes
  | .table => tableText outcomes

end Histogram

end DiceOdds
