import ScriptCell.Error
import ScriptCell.Decimal.Layout
import ScriptCell.Text.Quoted

/-!
# Values

A `Value` is what a cell of a script holds: a number, text, a truth value, the name of a variable
that is not resolved, null, or nothing known yet. `Value.display` is its plain text, `Value.inspect`
the form that names the kind, `Value.literal` the form in which text is quoted.
-/

namespace ScriptCell

/-- What a cell holds. -/
inductive Value where
  /-- Nothing known yet; a fresh cell holds it. -/
  | undefined
  /-- A number of 32 bits. -/
  | number (n : Single)
  /-- Text. -/
  | string (s : String)
  /-- A truth value. -/
  | bool (b : Bool)
  /-- The name of a variable that is not resolved. -/
  | variableRef (name : String)
  /-- The null that scripts can write. -/
  | null
  deriving DecidableEq

/-- Numbers in displayed values: always positional, with the words `NaN` and `Infinity`. -/
def displayLayout : Layout := ⟨none, false, false, .up, "Infinity"⟩

/-- Numbers in inspected values: whole numbers end in `.0`, and very small and very large numbers
have an exponent. -/
def inspectLayout : Layout := ⟨some (-4, 16), true, false, .up, "inf"⟩

namespace Value

instance : Inhabited Value := ⟨.undefined⟩

/-- The kind of a value. -/
def kind : Value → Kind
  | .undefined => .undefined
  | .number _ => .number
  | .string _ => .string
  | .bool _ => .bool
  | .variableRef _ => .variableRef
  | .null => .null

/-- Whether a value carries anything besides its kind. -/
def hasPayload (v : Value) : Bool := v.kind.hasPayload

/-- The name of a variable; no other value has one. -/
def variableName? : Value → Option String
  | .variableRef name => some name
  | _ => none

/-- Whether a value is a number that is a NaN. -/
def isNaN : Value → Bool
  | .number n => n.isNaN
  | _ => false

/-- The text a value carries; empty for a value that is no text. -/
def rawText : Value → String
  | .string s => s
  | _ => ""

/-- The name of a truth value in displayed values. -/
def boolName (b : Bool) : String := if b then "True" else "False"

/-- The plain text of a value. -/
def display : Value → String
  | .undefined => "undefined"
  | .number n => displayLayout.text n
  | .string s => s
  | .bool b => boolName b
  | .variableRef name => "$" ++ name
  | .null => "null"

/-- The form of a value that names its kind. -/
def inspect (v : Value) : String :=
  match v with
  | .undefined | .null => v.kind.tag
  | .number n => v.kind.tag ++ "(" ++ inspectLayout.text n ++ ")"
  | .string s => v.kind.tag ++ "(" ++ quote s ++ ")"
  | .bool b => v.kind.tag ++ "(" ++ (if b then "true" else "false") ++ ")"
  | .variableRef name => v.kind.tag ++ "(" ++ quote name ++ ")"

/-- The text of a value with texts quoted, so that text and number look different. -/
def literal : Value → String
  | .string s => quote s
  | v => v.display

@[simp] theorem kind_undefined : kind .undefined = .undefined := rfl
@[simp] theorem kind_number (n : Single) : kind (.number n) = .number := rfl
@[simp] theorem kind_string (s : String) : kind (.string s) = .string := rfl
@[simp] theorem kind_bool (b : Bool) : kind (.bool b) = .bool := rfl
@[simp] theorem kind_variableRef (name : String) : kind (.variableRef name) = .variableRef := rfl
@[simp] theorem kind_null : kind .null = .null := rfl

end Value

end ScriptCell
