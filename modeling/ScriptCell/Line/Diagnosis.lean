import ScriptCell.Line.Eval
import ScriptCell.Text.Paint

/-!
# Showing a failure

A diagnosis is a label, the message of a failure and lines of help. The help for a failure of the
line's form is chosen by its message, the help for a failure of an operation by its cause.
-/

namespace ScriptCell

/-- Whether the characters `p` occur somewhere in a list of characters. -/
def occursIn (p : List Char) : List Char → Bool
  | [] => p.isEmpty
  | c :: cs => p.isPrefixOf (c :: cs) || occursIn p cs

/-- A line of help. -/
def helpLine (s : String) : String := Colour.yellow.paint s

/-- A line of detail below the help. -/
def detailLine (s : String) : String := "    " ++ Colour.brightBlack.paint s

/-- The help for a failure of the line's form, by its message. -/
def formHelp (message : String) : List String :=
  if occursIn "Unterminated string".toList message.toList then
    [helpLine "Help: Text operands need a closing quote."]
  else
    [helpLine "Help: Write '<a> <op> <b>', 'neg <a>', or a single operand.",
      detailLine "Operators: + - * / % < > <= >= == !="]

/-- The help for a failure of an operation. -/
def Error.help : Error → List String
  | .unresolved name _ =>
    [helpLine "Help: Variable references have no value of their own.",
      detailLine ("Resolve '$" ++ name ++ "' to a concrete value before using it.")]
  | .incompatible _ lhs rhs =>
    if lhs = .string ∨ rhs = .string then [helpLine "Help: Only '+' accepts text operands."]
    else
      [helpLine "Help: Arithmetic needs a number on at least one side.",
        detailLine "• '+' also sums bool+bool and null+null",
        detailLine "• '- * / %' accept number with number, null or undefined"]
  | .incomparable _ _ =>
    [helpLine "Help: Ordering is only defined between values of the same kind.",
      detailLine "Use '==' to test values of different kinds."]
  | .unsupportedType _ => [helpLine "Help: Values hold none, text, numbers or bools."]

/-- The help for a failure. -/
def LineError.help (e : LineError) : List String :=
  match e with
  | .value e => e.help
  | _ => formHelp e.message

/-- A label, a message and lines of help, each on a line of its own. -/
def diagnosis (label message : String) (help : List String) : String :=
  let head := bold (Colour.red.paint label) ++ ": " ++ Colour.red.paint message
  String.join ((head :: help).map (· ++ "\n"))

/-- The diagnosis of a failure. -/
def LineError.diagnose (label : String) (e : LineError) : String := diagnosis label e.message e.help

end ScriptCell
