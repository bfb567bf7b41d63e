import DiceOdds.Dice.Roll
import DiceOdds.Expression

/-!
The distribution of an expression. The pools of an expression are thrown independently of each
other, also when the same pool is written twice.
-/

namespace DiceOdds

namespace Expression

def evaluate : Expression → Except Fault (Distribution Value)
  | .constant value => .ok (.certain value)
  | .pool dice => do
      let sums ← dice.distribution
      return sums.map .integer
  | .binary left operation right => do
      let first ← left.evaluate
      let second ← right.evaluate
      first.tryJoin second operation.compute
  | .bracketed inner => inner.evaluate
  | .converted source target => do
      let outcomes ← source.evaluate
      outcomes.tryMap fun value => value.convert? target

end Expression

end DiceOdds
