import ScriptCell.Session
import ScriptCell.Proofs.Line.Expression

/-!
# Bound operands

A reader can be told a value for a word, as the reader of a session is told its last result. Since
only the operand words of a line are read, such a binding is a substitution: wherever the word
stands as an operand, any word that is read as the value can stand in its place (`evalWords_bound`).
`mapOperands` says which places these are, and evaluating the changed words is evaluating the words
with a changed reader (`evalWords_mapOperands`).
-/

namespace ScriptCell

/-- Changes the operand words among the words of a line. -/
def mapOperands (f : String → String) : List String → List String
  | [word] => [f word]
  | [command, word] => [command, if command = "neg" then f word else word]
  | [lhs, op, rhs] => [f lhs, op, f rhs]
  | words => words

/-- Puts a literal in the place of a name wherever it is an operand. -/
def substitute (name literal : String) (words : List String) : List String :=
  mapOperands (fun word => if word = name then literal else word) words

/-- A reader for which a name has a value of its own. -/
def bound (name : String) (v : Value) (read : String → Value) : String → Value :=
  fun word => if word = name then v else read word

variable {read : String → Value} {words : List String}

/-- **Changed operands are evaluated as the old ones by a changed reader.** -/
theorem evalWords_mapOperands (read : String → Value) (f : String → String) (words : List String) :
    evalWords read (mapOperands f words) = evalWords (read ∘ f) words := by
  match words with
  | [] | [_] | [_, _, _] | _ :: _ :: _ :: _ :: _ => rfl
  | [command, word] =>
    by_cases hneg : command = "neg"
    · simp only [mapOperands, evalWords, if_pos hneg, Function.comp_apply]
    · simp only [mapOperands, evalWords, if_neg hneg]

/-- **A bound name stands for every word that is read as its value.** -/
theorem evalWords_bound (read : String → Value) (name literal : String) (words : List String) :
    evalWords (bound name (read literal) read) words =
      evalWords read (substitute name literal words) := by
  rw [substitute, evalWords_mapOperands]
  refine evalWords_congr fun word _ => ?_
  rw [bound, Function.comp_apply, apply_ite read]

/-- A name that is no operand can have any value. -/
theorem evalWords_bound_of_not_mem {name : String} (h : name ∉ operandWords words) (v : Value)
    (read : String → Value) : evalWords (bound name v read) words = evalWords read words := by
  refine evalWords_congr fun word hword => if_neg ?_
  rintro rfl
  exact h hword

/-- A list of another length than that of an operand, a negation or an operation has no operands. -/
theorem operandWords_eq_nil (h : words.length ∉ [1, 2, 3]) : operandWords words = [] := by
  match words with
  | [] | _ :: _ :: _ :: _ :: _ => rfl
  | [_] | [_, _] | [_, _, _] => exact absurd (by simp) h

/-- The reader of a session has the last result for the bare word `_`. -/
theorem Session.readOperand_eq_bound (last : Value) :
    readOperand last = bound "_" last ScriptCell.readOperand := rfl

/-- **Bindings of operands are substitutions.** A session evaluates words as they are evaluated with
a word for its last result in place of each operand `_`, failures included; and so for any reader
and any bound name. In general only the operand words are read: readers that agree on them give the
same evaluation, a name that is none of them can be bound to anything, and lists of more than three
words or of none read nothing. A quoted `_` is text whatever the last result is. -/
theorem bindings_are_substitutions :
    (∀ (last : Value) (literal : String) (words : List String), readOperand literal = last →
      evalWords (Session.readOperand last) words =
        evalWords readOperand (substitute "_" literal words)) ∧
    (∀ (read : String → Value) (name literal : String) (words : List String),
      evalWords (bound name (read literal) read) words =
        evalWords read (substitute name literal words)) ∧
    (∀ (read read' : String → Value) (words : List String),
      (∀ word ∈ operandWords words, read word = read' word) →
      evalWords read words = evalWords read' words) ∧
    (∀ (read : String → Value) (name : String) (v : Value) (words : List String),
      name ∉ operandWords words → evalWords (bound name v read) words = evalWords read words) ∧
    (∀ (read read' : String → Value) (words : List String), words.length ∉ [1, 2, 3] →
      evalWords read words = evalWords read' words) ∧
    ∀ (last : Value) (q : Char), isQuote q = true →
      Session.readOperand last (String.singleton q ++ "_" ++ String.singleton q) = .string "_" := by
  refine ⟨?_, evalWords_bound, fun _ _ _ => evalWords_congr,
    fun read _ v _ hname => evalWords_bound_of_not_mem hname v read, ?_, ?_⟩
  · rintro last literal words rfl
    rw [Session.readOperand_eq_bound, evalWords_bound]
  · intro read read' words hlen
    refine evalWords_congr fun word hword => ?_
    rw [operandWords_eq_nil hlen] at hword
    cases hword
  · intro last q hq
    have hne : String.singleton q ++ "_" ++ String.singleton q ≠ "_" := by
      intro h
      have hlength := congrArg String.length h
      rw [String.length_append, String.length_append, String.length_singleton] at hlength
      omega
    rw [Session.readOperand, if_neg hne, readOperand_quoted hq]

/-- The word `_` in all three places, where the one in the middle is no operator, and as the operand
of a negation. -/
theorem bindings_of_underscore :
    evalWords (Session.readOperand (.string "a b")) ["_", "_", "_"] =
      .error (.unknownOperator "_") ∧
    evalWords readOperand ["'a b'", "_", "'a b'"] = .error (.unknownOperator "_") ∧
    evalWords (bound "neg" .null readOperand) ["neg", "true"] =
      evalWords readOperand ["neg", "true"] := by
  obtain ⟨hlast, -, -, hbound, -⟩ := bindings_are_substitutions
  have hliteral : readOperand "'a b'" = .string "a b" :=
    readOperand_quoted (by decide : isQuote '\'' = true) "a b"
  have hsession := hlast _ _ ["_", "_", "_"] hliteral
  refine ⟨?_, ?_, hbound _ _ _ _ (by decide)⟩
  · rw [hsession]
    rfl
  · rfl

end ScriptCell
