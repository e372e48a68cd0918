import ScriptCell.Kind
import ScriptCell.Binary.Arith

/-!
# Operators

The arithmetic operators, the ordering operators and the operators whose result is a truth value,
with the symbols they are written by. No symbol stands for two operators, so reading a symbol
inverts writing it (`ArithOp.ofSymbol?_symbol`, `OrderOp.ofSymbol?_symbol`,
`TestOp.ofSymbol?_symbol`).

An arithmetic operator looks at the kinds of its operands only and takes the first `Rule` that
applies.
-/

namespace ScriptCell

/-! ## The operators and their rules -/

/-- The arithmetic operators. -/
inductive ArithOp where
  | add
  | sub
  | mul
  | div
  | rem
  deriving DecidableEq

/-- The ordering operators. -/
inductive OrderOp where
  | lt
  | gt
  | le
  | ge
  deriving DecidableEq

/-- What an arithmetic operator does with a pair of operands. -/
inductive Rule where
  /-- Join the texts of both sides; a side that is no text adds nothing. -/
  | join
  /-- The result is not known: a NaN. -/
  | unknown
  /-- Compute on the number views of both sides. -/
  | compute
  /-- There is no rule for these kinds. -/
  | reject
  deriving DecidableEq

/-! ## Arithmetic -/

namespace ArithOp

/-- Every arithmetic operator. -/
def all : List ArithOp := [.add, .sub, .mul, .div, .rem]

/-- How an operator is written. -/
def symbol : ArithOp → String
  | .add => "+"
  | .sub => "-"
  | .mul => "*"
  | .div => "/"
  | .rem => "%"

/-- The operator written by a symbol. -/
def ofSymbol? (s : String) : Option ArithOp := all.find? fun op => op.symbol = s

/-- What an operator does, as a verb in messages. -/
def verb : ArithOp → String
  | .add => "add"
  | .sub => "subtract"
  | .mul => "multiply"
  | .div => "divide"
  | .rem => "take the remainder of"

/-- The operation on numbers. -/
def onNumbers {f : Format} : ArithOp → Binary f → Binary f → Binary f
  | .add => Binary.add
  | .sub => Binary.sub
  | .mul => Binary.mul
  | .div => Binary.div
  | .rem => Binary.rem

/-- The rule of `+` for two kinds: text joins with anything; a value that is not known makes the sum
with a number or null unknown; then a number on either side, two truth values or two nulls are
summed. -/
def sumRule (a b : Kind) : Rule :=
  if a = .string ∨ b = .string then .join
  else if a = .undefined ∧ (b = .null ∨ b = .number) ∨
      b = .undefined ∧ (a = .null ∨ a = .number) then
    .unknown
  else if a = .number ∨ b = .number ∨ a = b ∧ (a = .bool ∨ a = .null) then .compute
  else .reject

/-- Whether a number may be combined with this kind by an operator other than `+`. -/
def joinsNumber (k : Kind) : Bool := k = .number || k = .undefined || k = .null

/-- The rule of the other operators for two kinds: a number on one side, and a number or no payload
on the other. -/
def productRule (a b : Kind) : Rule :=
  if a = .number ∧ joinsNumber b ∨ b = .number ∧ joinsNumber a then .compute else .reject

/-- The rule of an operator for two kinds. -/
def rule : ArithOp → Kind → Kind → Rule
  | .add => sumRule
  | .sub | .mul | .div | .rem => productRule

theorem mem_all (op : ArithOp) : op ∈ all := by cases op <;> decide

@[simp] theorem ofSymbol?_symbol (op : ArithOp) : ofSymbol? op.symbol = some op := by
  cases op <;> decide

end ArithOp

/-! ## Order -/

namespace OrderOp

/-- Every ordering operator. -/
def all : List OrderOp := [.lt, .gt, .le, .ge]

/-- How an operator is written. -/
def symbol : OrderOp → String
  | .lt => "<"
  | .gt => ">"
  | .le => "<="
  | .ge => ">="

/-- The operator written by a symbol. -/
def ofSymbol? (s : String) : Option OrderOp := all.find? fun op => op.symbol = s

/-- Whether an operator holds of two values ordered in this way; none holds of unordered ones. -/
def holds : OrderOp → Option Ordering → Bool
  | .lt, o => o = some .lt
  | .gt, o => o = some .gt
  | .le, o => o = some .lt || o = some .eq
  | .ge, o => o = some .gt || o = some .eq

theorem mem_all (op : OrderOp) : op ∈ all := by cases op <;> decide

@[simp] theorem ofSymbol?_symbol (op : OrderOp) : ofSymbol? op.symbol = some op := by
  cases op <;> decide

end OrderOp

/-! ## Tests -/

/-- The operators whose result is a truth value. -/
inductive TestOp where
  /-- An ordering operator. -/
  | order (op : OrderOp)
  /-- Equality. -/
  | equal
  /-- Difference. -/
  | differ
  deriving DecidableEq

namespace TestOp

/-- Every operator whose result is a truth value. -/
def all : List TestOp := OrderOp.all.map .order ++ [.equal, .differ]

/-- How an operator is written. -/
def symbol : TestOp → String
  | .order op => op.symbol
  | .equal => "=="
  | .differ => "!="

/-- The operator written by a symbol. -/
def ofSymbol? (s : String) : Option TestOp := all.find? fun op => op.symbol = s

theorem mem_all (op : TestOp) : op ∈ all := by
  rcases op with op | _ | _
  · cases op <;> decide
  · decide
  · decide

@[simp] theorem ofSymbol?_symbol (op : TestOp) : ofSymbol? op.symbol = some op := by
  rcases op with op | _ | _
  · cases op <;> decide
  · decide
  · decide

end TestOp

end ScriptCell
