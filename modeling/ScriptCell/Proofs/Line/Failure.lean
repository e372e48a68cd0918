import ScriptCell.Proofs.Line.Expression
import ScriptCell.Proofs.Value.Arith

/-!
# Why an input is not evaluated

`Fails` lists the causes for which a line, or words that are given one by one, are not evaluated,
each with the failure that it leads to. An input fails exactly for these causes
(`Input.eval_eq_error_iff`), and for one of them only (`Fails.unique`).
-/

namespace ScriptCell

/-! ## Inputs and the causes of failures -/

/-- What can be evaluated: a line, or words that are given one by one. -/
inductive Input where
  | line (text : String)
  | words (given : List String)

namespace Input

/-- The words of an input. -/
def split : Input → Except LineError (List String)
  | .line text => splitWords text
  | .words given => .ok given

/-- Evaluates an input, reading operands by `read`. -/
def eval (read : String → Value) : Input → Except LineError Outcome
  | .line text => evalLineWith read text
  | .words given => evalWords read given

/-- A quote is never closed. -/
def IsUnterminated (i : Input) : Prop := ∃ q, i.split = .error (.unterminated q)

/-- There are no words, or two of which the first is not the command of negation, or more than
three. -/
def IsMisshapen (i : Input) : Prop :=
  ∃ words, i.split = .ok words ∧
    (words = [] ∨ (∃ command word, words = [command, word] ∧ command ≠ "neg") ∨ 3 < words.length)

/-- There are three words, and the one in the middle is no operator. -/
def HasUnknown (i : Input) (word : String) : Prop :=
  ∃ lhs rhs, i.split = .ok [lhs, word, rhs] ∧ (∀ op : ArithOp, word ≠ op.symbol) ∧
    ∀ op : TestOp, word ≠ op.symbol

/-- There are three words, and this one stands between words that are read as `a` and `b`. -/
def Applies (read : String → Value) (i : Input) (word : String) (a b : Value) : Prop :=
  ∃ lhs rhs, i.split = .ok [lhs, word, rhs] ∧ read lhs = a ∧ read rhs = b

end Input

/-- The failures of an input, each with its cause. -/
inductive Fails (read : String → Value) (i : Input) : LineError → Prop
  | unterminated {q : Char} : i.split = .error (.unterminated q) → Fails read i (.unterminated q)
  | empty : i.split = .ok [] → Fails read i .missingOperand
  | two {command word : String} : i.split = .ok [command, word] → command ≠ "neg" →
      Fails read i (.wordCount 2)
  | many {words : List String} : i.split = .ok words → 3 < words.length →
      Fails read i (.wordCount words.length)
  | unknown {word : String} : i.HasUnknown word → Fails read i (.unknownOperator word)
  | arith {op : ArithOp} {a b : Value} {e : Error} : i.Applies read op.symbol a b →
      op.apply a b = .error e → Fails read i (.value e)
  | order {op : OrderOp} {a b : Value} {e : Error} : i.Applies read op.symbol a b →
      op.apply a b = .error e → Fails read i (.value e)

variable {read : String → Value} {i : Input} {e : LineError} {a b : Value} {word : String}

theorem Input.eval_eq (read : String → Value) (i : Input) :
    i.eval read = i.split >>= evalWords read := by
  cases i <;> rfl

/-- A line is not split only because of a quote. -/
theorem Input.exists_unterminated (h : i.split = .error e) : ∃ q, e = .unterminated q := by
  cases i with
  | line text =>
    rw [Input.split, splitWords] at h
    split at h
    · cases h
    · exact ⟨_, (Except.error.inj h).symm⟩
  | words given => cases h

/-- **Each cause leads to its failure.** -/
theorem Fails.eval_eq (h : Fails read i e) : i.eval read = .error e := by
  rw [Input.eval_eq]
  cases h with
  | unterminated h => rw [h]; rfl
  | empty h => rw [h]; rfl
  | two h hneg =>
    rw [h]
    exact if_neg hneg
  | @many words h hlen =>
    rw [h]
    match words, hlen with
    | _ :: _ :: _ :: _ :: _, _ => rfl
  | unknown h =>
    obtain ⟨lhs, rhs, h, ha, ht⟩ := h
    rw [h]
    exact evalOperator_of_unknown ha ht _ _
  | @arith op a b e h he =>
    obtain ⟨lhs, rhs, h, rfl, rfl⟩ := h
    rw [h]
    refine (evalOperator_arith op _ _).trans ?_
    rw [he]
    rfl
  | @order op a b e h he =>
    obtain ⟨lhs, rhs, h, rfl, rfl⟩ := h
    rw [h]
    refine (evalOperator_test (.order op) _ _).trans ?_
    rw [TestOp.apply, he]
    rfl

/-- Every failure has one of the causes. -/
theorem fails_of_eval (h : i.eval read = .error e) : Fails read i e := by
  rw [Input.eval_eq] at h
  cases hs : i.split with
  | error e' =>
    obtain ⟨q, rfl⟩ := Input.exists_unterminated hs
    rw [hs] at h
    obtain rfl := Except.error.inj h
    exact .unterminated hs
  | ok words =>
    rw [hs] at h
    match words with
    | [] =>
      obtain rfl := Except.error.inj h
      exact .empty hs
    | [word] => cases h
    | [command, word] =>
      change evalWords read [command, word] = _ at h
      rw [evalWords] at h
      split at h
      · cases h
      · next hneg =>
        obtain rfl := Except.error.inj h
        exact .two hs hneg
    | [lhs, word, rhs] =>
      change evalOperator word (read lhs) (read rhs) = _ at h
      have happlies : i.Applies read word (read lhs) (read rhs) := ⟨lhs, rhs, hs, rfl, rfl⟩
      by_cases harith : ∃ op : ArithOp, word = op.symbol
      · obtain ⟨op, rfl⟩ := harith
        rw [evalOperator_arith] at h
        cases happly : op.apply (read lhs) (read rhs) with
        | ok v => rw [happly] at h; cases h
        | error e' =>
          rw [happly] at h
          obtain rfl := Except.error.inj h
          exact .arith happlies happly
      by_cases htest : ∃ op : TestOp, word = op.symbol
      · obtain ⟨op, rfl⟩ := htest
        rw [evalOperator_test] at h
        cases happly : op.apply (read lhs) (read rhs) with
        | ok v => rw [happly] at h; cases h
        | error e' =>
          rw [happly] at h
          obtain rfl := Except.error.inj h
          cases op with
          | order op => exact .order happlies happly
          | equal | differ => cases happly
      · rw [evalOperator_of_unknown (not_exists.1 harith) (not_exists.1 htest)] at h
        obtain rfl := Except.error.inj h
        exact .unknown ⟨lhs, rhs, hs, not_exists.1 harith, not_exists.1 htest⟩
    | w₁ :: w₂ :: w₃ :: w₄ :: words =>
      obtain rfl := Except.error.inj h
      exact .many hs (by simp)

/-- **An input fails exactly for its causes.** -/
theorem Input.eval_eq_error_iff : i.eval read = .error e ↔ Fails read i e :=
  ⟨fails_of_eval, Fails.eval_eq⟩

/-- An input has one failure. -/
theorem Fails.unique {e' : LineError} (h : Fails read i e) (h' : Fails read i e') : e = e' :=
  Except.error.inj (h.eval_eq.symm.trans h'.eval_eq)

end ScriptCell
