import ScriptCell.Value.Arith
import ScriptCell.Value.Test
import ScriptCell.Host

/-!
# The cases that are timed

A case has a name, two operands and a probe, the operation that is run on them again and again. The
names are unique (`names_nodup`).
-/

namespace ScriptCell.Timing

/-- An operation that is timed. -/
inductive Probe where
  /-- An arithmetic operator; the answer is the code of the result's kind. -/
  | arith (op : ArithOp)
  /-- An ordering operator; the answer is `1` or `0`. -/
  | order (op : OrderOp)
  /-- Equality; the answer is `1` or `0`. -/
  | equal
  /-- Hashing of the left operand. -/
  | digest
  /-- The text view of the left operand; the answer is its length in bytes. -/
  | textLength
  /-- The number view of the left operand; the answer is its whole part. -/
  | wholeNumber
  /-- Unary minus of the left operand; the answer is the code of the result's kind. -/
  | negate
  deriving DecidableEq

/-- Runs a probe. The number that hashing gives is not part of its meaning, so it is left open. -/
def Probe.run (a b : Value) : Probe → Except Error (Option Nat)
  | .arith op => (op.apply a b).map fun v => some v.kind.code
  | .order op => (op.apply a b).map fun r => some r.toNat
  | .equal => .ok (some (a.equal b).toNat)
  | .digest => .ok none
  | .textLength => a.textView.map fun s => some s.utf8ByteSize
  | .wholeNumber => a.numberView.map fun x => some x.toWord
  | .negate => .ok (some a.negate.kind.code)

/-- A case that is timed. -/
structure Case where
  /-- The name of the case. -/
  name : String
  /-- The left operand. -/
  lhs : Value
  /-- The right operand. -/
  rhs : Value
  /-- What is run. -/
  probe : Probe

/-- One run of a case. -/
def Case.run (c : Case) : Except Error (Option Nat) := c.probe.run c.lhs c.rhs

/-- The number `digits * 10 ^ exponent`. -/
def decimalValue (digits : Nat) (exponent : Int) : Value :=
  .number (.ofDecimal .single ⟨false, digits, exponent⟩)

/-- The table of cases. -/
def cases : List Case :=
  [⟨"add_numbers", decimalValue 15 (-1), .ofInt 2, .arith .add⟩,
    ⟨"add_strings", .string "hello, ", .string "world", .arith .add⟩,
    ⟨"add_unknown", .undefined, .null, .arith .add⟩,
    ⟨"sub_null", .ofInt 9, .null, .arith .sub⟩,
    ⟨"div_zero", .ofInt 1, .ofInt 0, .arith .div⟩,
    ⟨"rem_numbers", .ofInt 17, .ofInt 5, .arith .rem⟩,
    ⟨"compare_numbers", .ofInt 1, .ofInt 2, .order .lt⟩,
    ⟨"compare_strings", .string "12.5", .string "3", .order .ge⟩,
    ⟨"equals_strings", .string "line", .string "line", .equal⟩,
    ⟨"hash_string", .string "a longer dialogue line", .null, .digest⟩,
    ⟨"number_as_string", decimalValue 12345 (-1), .null, .textLength⟩,
    ⟨"string_as_number", .string "1234.5", .null, .wholeNumber⟩,
    ⟨"neg_text", .string "   ", .null, .negate⟩]

/-- The case of a name. -/
def findCase? (name : String) : Option Case := cases.find? fun c => c.name = name

/-- A letter in lower case, as far as that can be a letter of a case's name: the capital letters of
ASCII, and the Kelvin sign, whose lower case is `k`. -/
def foldChar (c : Char) : Char := if c = '\u212a' then 'k' else c.toLower

/-- Text with its letters in lower case, as far as that can be the name of a case. -/
def foldCase (s : String) : String := String.ofList (s.toList.map foldChar)

/-- The cases that a list of names selects, in the order of the table; no names select all. Letter
case is ignored. -/
def selectCases (names : List String) : List Case :=
  if names = [] then cases else cases.filter fun c => (names.map foldCase).contains c.name

/-- The line of a case in the listing of the table. -/
def Case.listing (c : Case) : String :=
  "- " ++ c.name ++ " (" ++ c.lhs.inspect ++ ", " ++ c.rhs.inspect ++ ")\n"

/-- No two cases have one name. -/
theorem names_nodup : (cases.map (·.name)).Nodup := by decide

end ScriptCell.Timing
