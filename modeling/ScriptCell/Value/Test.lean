import ScriptCell.Value.Order
import ScriptCell.Value.Key

/-!
# Tests on two values

The ordering operators, which can fail, and equality, which cannot.
-/

namespace ScriptCell

/-- Applies an operator whose result is a truth value. -/
def TestOp.apply : TestOp → Value → Value → Except Error Bool
  | .order op, a, b => op.apply a b
  | .equal, a, b => .ok (a.equal b)
  | .differ, a, b => .ok (!a.equal b)

end ScriptCell
