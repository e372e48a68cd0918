import ScriptCell.Value.View
import ScriptCell.Line.Words
import ScriptCell.Host

/-!
# Operand words

A word that stands for a value: a keyword, a variable behind a dollar sign, text between two quotes
of one sort, a number, or else the word itself as text. A number is read with 64 bits and then
narrowed.
-/

namespace ScriptCell

/-- The words with a meaning of their own. -/
def keywords : List (String × Value) :=
  [("undefined", .undefined), ("null", .null), ("true", .bool true), ("True", .bool true),
    ("false", .bool false), ("False", .bool false)]

/-- The text between two quotes of one sort. -/
def unquote? : List Char → Option (List Char)
  | q :: cs => if isQuote q ∧ cs.getLast? = some q then some cs.dropLast else none
  | [] => none

/-- The value of a word that is neither a keyword nor a variable. -/
def readPlainOperand (word : String) : Value :=
  match unquote? word.toList with
  | some cs => .string (String.ofList cs)
  | none =>
    match Binary.ofText? .double word with
    | some x => .ofDouble x
    | none => .string word

/-- The value that a word stands for. -/
def readOperand (word : String) : Value :=
  match keywords.lookup word with
  | some v => v
  | none =>
    match word.toList with
    | '$' :: name => .variableRef (String.ofList name)
    | _ => readPlainOperand word

end ScriptCell
