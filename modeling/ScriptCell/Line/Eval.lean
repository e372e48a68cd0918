import ScriptCell.Line.Operand
import ScriptCell.Value.Arith
import ScriptCell.Value.Test

/-!
# Evaluating a line

A line is one operand, `neg` and an operand, or two operands with an operator between them.
`evalWords` is told how to read an operand word; the word of the operator and the word `neg` are
never read as operands.
-/

namespace ScriptCell

/-- Why a line has no outcome. -/
inductive LineError where
  /-- A quote is never closed. -/
  | unterminated (quote : Char)
  /-- There are no words. -/
  | missingOperand
  /-- The word between two operands is no operator. -/
  | unknownOperator (word : String)
  /-- The words have no form that can be evaluated. -/
  | wordCount (count : Nat)
  /-- The operation itself fails. -/
  | value (e : Error)
  deriving DecidableEq

/-- The wording of a failure. -/
def LineError.message : LineError → String
  | .unterminated q => "Unterminated string starting with " ++ String.singleton q
  | .missingOperand => "Expected an operand"
  | .unknownOperator word => "Unknown operator '" ++ word ++ "'"
  | .wordCount count =>
    "Expected '<a> <op> <b>', 'neg <a>' or a single operand, got " ++ Nat.repr count ++ " words"
  | .value e => e.message

/-- What evaluating a line gives. -/
inductive Outcome where
  /-- The result of an arithmetic operator or of `neg`. -/
  | value (v : Value)
  /-- The result of a test. -/
  | truth (b : Bool)
  /-- A lone operand, to be shown with all its views. -/
  | views (v : Value)
  deriving DecidableEq

/-- The value that an outcome leaves behind. -/
def Outcome.result : Outcome → Value
  | .value v => v
  | .truth b => .bool b
  | .views v => v

/-- The words of a line. -/
def splitWords (line : String) : Except LineError (List String) :=
  match splitChars line.toList with
  | .ok words => .ok (words.map String.ofList)
  | .error q => .error (.unterminated q)

/-- Applies the operator written by a word. -/
def evalOperator (word : String) (a b : Value) : Except LineError Outcome :=
  match ArithOp.ofSymbol? word with
  | some op => ((op.apply a b).map .value).mapError .value
  | none =>
    match TestOp.ofSymbol? word with
    | some op => ((op.apply a b).map .truth).mapError .value
    | none => .error (.unknownOperator word)

/-- Evaluates words, reading operands by `read`. -/
def evalWords (read : String → Value) : List String → Except LineError Outcome
  | [] => .error .missingOperand
  | [word] => .ok (.views (read word))
  | [command, word] =>
    if command = "neg" then .ok (.value (read word).negate) else .error (.wordCount 2)
  | [lhs, op, rhs] => evalOperator op (read lhs) (read rhs)
  | words => .error (.wordCount words.length)

/-- Evaluates a line, reading operands by `read`. -/
def evalLineWith (read : String → Value) (line : String) : Except LineError Outcome :=
  splitWords line >>= evalWords read

/-- Evaluates a line. -/
def evalLine (line : String) : Except LineError Outcome := evalLineWith readOperand line

end ScriptCell
