import ScriptCell.Line.Rendering
import ScriptCell.Line.Diagnosis
import ScriptCell.Output
import ScriptCell.Proofs.Line.Words

/-!
# What an evaluation depends on

The words of a line are all that its evaluation depends on (`evalLine_of_spaced`), and the way in
which operands are read matters for the operand words only (`evalWords_congr`).
-/

namespace ScriptCell

/-- What is written about an evaluation: what it gives, or why it gives nothing. -/
def shown : Except LineError Outcome → Output
  | .ok outcome => .onOut (outcome.render ++ "\n")
  | .error e => .onErr (e.diagnose "Error")

/-- White space around a line makes no difference to what it evaluates to. -/
theorem evalLine_trim (line : String) : evalLine (trim line) = evalLine line := by
  unfold evalLine evalLineWith
  rw [splitWords_trim]

/-- **A line is evaluated by its words.** -/
theorem evalLine_of_spaced {words : List String} {line : String}
    (h : Spaced (words.map String.toList) line.toList) :
    evalLine line = evalWords readOperand words := by
  unfold evalLine evalLineWith
  rw [splitWords_of_spaced h]
  rfl

/-- The words among the words of a line that are read as operands. -/
def operandWords : List String → List String
  | [word] => [word]
  | [command, word] => if command = "neg" then [word] else []
  | [lhs, _, rhs] => [lhs, rhs]
  | _ => []

/-- Readers that agree on the operand words give the same evaluation. -/
theorem evalWords_congr {read read' : String → Value} {words : List String}
    (h : ∀ word ∈ operandWords words, read word = read' word) :
    evalWords read words = evalWords read' words := by
  match words with
  | [] => rfl
  | [word] => rw [evalWords, evalWords, h word (List.mem_singleton_self word)]
  | [command, word] =>
    by_cases hneg : command = "neg"
    · rw [evalWords, evalWords, h word (by simp [operandWords, hneg])]
    · rw [evalWords, evalWords, if_neg hneg, if_neg hneg]
  | [lhs, op, rhs] =>
    rw [evalWords, evalWords, h lhs (by simp [operandWords]), h rhs (by simp [operandWords])]
  | _ :: _ :: _ :: _ :: _ => rfl

end ScriptCell
