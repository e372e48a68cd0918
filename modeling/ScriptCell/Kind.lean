/-!
# The kinds of values

Every value has one of six kinds. Kinds are ordered as they are declared.
-/

namespace ScriptCell

/-- What sort of thing a value is. -/
inductive Kind where
  /-- Not known yet, the kind of a fresh cell. -/
  | undefined
  /-- A number of 32 bits. -/
  | number
  /-- Text. -/
  | string
  /-- A truth value. -/
  | bool
  /-- A variable that is not resolved. -/
  | variableRef
  /-- The null that scripts can write. -/
  | null
  deriving DecidableEq

namespace Kind

/-- Every kind, in order. -/
def all : List Kind := [.undefined, .number, .string, .bool, .variableRef, .null]

/-- The position of a kind in the order of kinds. -/
def code : Kind → Nat
  | .undefined => 0
  | .number => 1
  | .string => 2
  | .bool => 3
  | .variableRef => 4
  | .null => 5

/-- The name of a kind in messages. -/
def name : Kind → String
  | .undefined => "undefined"
  | .number => "number"
  | .string => "string"
  | .bool => "bool"
  | .variableRef => "variable"
  | .null => "null"

/-- The name of a kind in the inspected form of values. -/
def tag : Kind → String
  | .undefined => "Undefined"
  | .number => "Number"
  | .string => "String"
  | .bool => "Bool"
  | .variableRef => "VariableRef"
  | .null => "Null"

/-- Whether values of a kind carry anything besides their kind. -/
def hasPayload : Kind → Bool
  | .undefined | .null => false
  | .number | .string | .bool | .variableRef => true

/-- The order of two kinds. -/
def order (a b : Kind) : Ordering := compare a.code b.code

theorem mem_all (k : Kind) : k ∈ all := by cases k <;> decide

end Kind

end ScriptCell
