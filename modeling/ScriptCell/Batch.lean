import ScriptCell.Line.Rendering
import ScriptCell.Line.Diagnosis
import ScriptCell.Output
import ScriptCell.Text.Encoding

/-!
# Batches

The lines of a text are evaluated one by one; blank lines and comments are passed over but counted.
The result of a line goes to the output stream, its failure with the number of the line to the error
stream.
-/

namespace ScriptCell

namespace Batch

/-- What a run over some lines gives: its output and the number of lines that failed. -/
structure Result where
  /-- What is written. -/
  output : Output
  /-- How many lines failed. -/
  failures : Nat
  deriving DecidableEq

/-- The result of no lines. -/
def Result.empty : Result := ⟨.empty, 0⟩

instance : Append Result := ⟨fun a b => ⟨a.output ++ b.output, a.failures + b.failures⟩⟩

@[simp] theorem Result.output_append (a b : Result) : (a ++ b).output = a.output ++ b.output := rfl

@[simp] theorem Result.failures_append (a b : Result) :
    (a ++ b).failures = a.failures + b.failures := rfl

/-- Whether a trimmed line is passed over: it is blank or a comment. -/
def isSkipped : List Char → Bool
  | [] => true
  | c :: _ => c = '#'

/-- Evaluates the line with a number. -/
def runLine (number : Nat) (line : String) : Result :=
  let text := trim line
  if isSkipped text.toList then .empty
  else
    match evalLine text with
    | .ok outcome =>
      ⟨.onOut (text ++ " " ++ Colour.brightBlack.paint "=>" ++ " " ++ outcome.render ++ "\n"), 0⟩
    | .error e =>
      ⟨.onErr ("  --> line " ++ Nat.repr number ++ ": " ++ text ++ "\n" ++ e.diagnose "Error"), 1⟩

/-- Evaluates lines, the first of which has the number `number`. -/
def runLines (number : Nat) : List String → Result
  | [] => .empty
  | line :: rest => runLine number line ++ runLines (number + 1) rest

/-- Evaluates the lines of a text. -/
def run (text : String) : Result := runLines 1 (lines text)

end Batch

end ScriptCell
