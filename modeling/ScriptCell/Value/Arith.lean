import ScriptCell.Value.View

/-!
# Arithmetic on values

An operator classifies the kinds of its operands (`ArithOp.rule`) and then acts. The left view is
taken before the right one, so that of two variables the left one is reported. Negation never fails.

* `ArithOp.apply_eq_join`, `ArithOp.apply_eq_unknown`, `ArithOp.apply_eq_reject`: one equation per
  rule that takes no view.
-/

namespace ScriptCell

namespace ArithOp

/-- Applies an arithmetic operator to two values. -/
def apply (op : ArithOp) (a b : Value) : Except Error Value :=
  match op.rule a.kind b.kind with
  | .join => .ok (.string (a.rawText ++ b.rawText))
  | .unknown => .ok (.number (.nan .single false))
  | .compute => do
    let x ← a.numberView
    let y ← b.numberView
    pure (.number (op.onNumbers x y))
  | .reject => .error (.incompatible op a.kind b.kind)

theorem apply_eq_join {op : ArithOp} {a b : Value} (h : op.rule a.kind b.kind = .join) :
    op.apply a b = .ok (.string (a.rawText ++ b.rawText)) := by
  simp [apply, h]

theorem apply_eq_unknown {op : ArithOp} {a b : Value} (h : op.rule a.kind b.kind = .unknown) :
    op.apply a b = .ok (.number (.nan .single false)) := by
  simp [apply, h]

theorem apply_eq_reject {op : ArithOp} {a b : Value} (h : op.rule a.kind b.kind = .reject) :
    op.apply a b = .error (.incompatible op a.kind b.kind) := by
  simp [apply, h]

end ArithOp

/-- Unary minus: a number is negated, blank text is `-0`, and everything else is a NaN. -/
def Value.negate : Value → Value
  | .number n => .number n.negate
  | .string s =>
    if trimChars s.toList = [] then .number (.zero .single true) else .number (.nan .single false)
  | .undefined | .bool _ | .variableRef _ | .null => .number (.nan .single false)

/-- The ways to ask for unary minus: by name, or as the operator on a value that is borrowed or
given away. -/
inductive MinusForm where
  | named
  | borrowed
  | owned
  deriving DecidableEq

/-- Unary minus as one of its forms computes it. The operators call `negate`. -/
def Value.minus : MinusForm → Value → Value
  | .named, v => v.negate
  | .borrowed, v => v.negate
  | .owned, v => v.negate

/-- The negation of anything is a number. -/
@[simp] theorem Value.kind_negate (v : Value) : v.negate.kind = .number := by
  cases v with
  | string s => rw [negate]; split <;> rfl
  | _ => rfl

end ScriptCell
