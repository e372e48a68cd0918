import ScriptCell.Value
import ScriptCell.Decimal.Literal
import ScriptCell.Text.Blank

/-!
# Views of a value

A value can be read as a number, as a truth value and as text. Only a variable that is not resolved
has no views; its views fail with its name and the view that was asked for. `Value.convertTo` makes
a value of a kind out of the matching view.
-/

namespace ScriptCell

/-- The number that text denotes after trimming; `+0` if it denotes none. -/
def numberOfText (s : String) : Single :=
  (Binary.ofText? .single (trim s)).getD (.zero .single false)

namespace Value

/-- The number one or zero for a truth value. -/
def numberOfBool (b : Bool) : Single := Binary.ofInt .single (if b then 1 else 0)

/-- A value as a number. -/
def numberView : Value → Except Error Single
  | .number n => .ok n
  | .string s => .ok (numberOfText s)
  | .bool b => .ok (numberOfBool b)
  | .undefined | .null => .ok (.zero .single false)
  | .variableRef name => .error (.unresolved name .number)

/-- A value as a truth value: zeros, NaN and empty text are false. -/
def truthView : Value → Except Error Bool
  | .number n => .ok (!(n.isZero || n.isNaN))
  | .string s => .ok (!s.isEmpty)
  | .bool b => .ok b
  | .undefined | .null => .ok false
  | .variableRef name => .error (.unresolved name .bool)

/-- A value as text. -/
def textView : Value → Except Error String
  | .undefined => .ok "undefined"
  | .number n => .ok (displayLayout.text n)
  | .string s => .ok s
  | .bool b => .ok (boolName b)
  | .variableRef name => .error (.unresolved name .string)
  | .null => .ok "null"

/-- The value of kind `target` that the matching view gives. Nothing converts to a variable. -/
def convertTo (v : Value) : Kind → Except Error Value
  | .number => v.numberView.map .number
  | .bool => v.truthView.map .bool
  | .string => v.textView.map .string
  | .null => .ok .null
  | .undefined => .ok .undefined
  | .variableRef => .error (.unresolved (v.variableName?.getD "") .variableRef)

end Value

end ScriptCell
