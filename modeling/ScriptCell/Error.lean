import ScriptCell.Operator

/-!
# Why an operation on values fails

An `Error` is a cause with what a message needs; `Error.message` words it.
-/

namespace ScriptCell

/-- A failure of an operation on values. -/
inductive Error where
  /-- A host value of a type that no value can hold. -/
  | unsupportedType (typeName : String)
  /-- A view of a variable that is not resolved, or a conversion to a variable. -/
  | unresolved (name : String) (target : Kind)
  /-- An arithmetic operator has no rule for the kinds of its operands. -/
  | incompatible (op : ArithOp) (lhs rhs : Kind)
  /-- Values of different kinds are not ordered. -/
  | incomparable (lhs rhs : Kind)
  deriving DecidableEq

/-- The wording of a failure. -/
def Error.message : Error → String
  | .unsupportedType typeName => "Unsupported value type '" ++ typeName ++ "'"
  | .unresolved name target =>
    "Cannot convert unresolved variable '$" ++ name ++ "' to " ++ target.name
  | .incompatible op lhs rhs => "Cannot " ++ op.verb ++ " " ++ lhs.name ++ " and " ++ rhs.name
  | .incomparable lhs rhs => "Cannot compare " ++ lhs.name ++ " with " ++ rhs.name

end ScriptCell
