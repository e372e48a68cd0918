import ScriptCell.Value.View

/-!
# The order of values

Two values without payload are equal in order; otherwise only values of one kind are ordered, by
their number views. A NaN is ordered with nothing.
-/

namespace ScriptCell

/-- How two values are ordered; `none` where a NaN is involved. -/
def Value.compare? (a b : Value) : Except Error (Option Ordering) :=
  if !a.hasPayload && !b.hasPayload then .ok (some .eq)
  else if a.kind ≠ b.kind then .error (.incomparable a.kind b.kind)
  else do
    let x ← a.numberView
    let y ← b.numberView
    pure (x.compare? y)

/-- Whether an ordering operator holds of two values. -/
def OrderOp.apply (op : OrderOp) (a b : Value) : Except Error Bool :=
  (a.compare? b).map op.holds

end ScriptCell
