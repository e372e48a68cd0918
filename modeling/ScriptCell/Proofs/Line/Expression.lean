import ScriptCell.Line.Operand
import ScriptCell.Proofs.Line.Eval
import ScriptCell.Proofs.Line.Grammar

/-!
# Written expressions

`IsLiteral` lists the ways to write a value that is no number: its keyword, the name of a variable
behind a dollar sign, text between two quotes of a sort that the text does not hold. A literal is
one word of a line (`IsLiteral.isWord`) and is read as the value that it was written for
(`IsLiteral.readOperand_eq`), whatever the text between the quotes looks like. So evaluating an
expression written with literals is applying its operator to the values (`evalLine_of_literals`).
`Gives` lists the words that are evaluated with success, each form with its outcome
(`evalWords_eq_ok_iff`).
-/

namespace ScriptCell

/-- The ways to write a value that is no number. -/
inductive IsLiteral : Value → String → Prop
  | undefined : IsLiteral .undefined "undefined"
  | null : IsLiteral .null "null"
  | trueLower : IsLiteral (.bool true) "true"
  | trueUpper : IsLiteral (.bool true) "True"
  | falseLower : IsLiteral (.bool false) "false"
  | falseUpper : IsLiteral (.bool false) "False"
  | variableRef {name : String} : (∀ c ∈ name.toList, isBlank c = false) →
      IsLiteral (.variableRef name) ("$" ++ name)
  | string {q : Char} {s : String} : isQuote q = true → q ∉ s.toList →
      IsLiteral (.string s) (String.singleton q ++ s ++ String.singleton q)

/-! ## Reading literals -/

/-- No keyword begins with a dollar sign or a quote. -/
theorem keywords_lookup_of_head {w : String} {c : Char} (hw : w.toList.head? = some c)
    (hc : c = '$' ∨ isQuote c = true) : keywords.lookup w = none := by
  have hheads : ∀ p ∈ keywords, p.1.toList.head?.any (fun d => d = '$' || isQuote d) = false := by
    decide
  rw [List.lookup_eq_none_iff]
  intro p hp
  rw [bne_iff_ne]
  rintro rfl
  have hhead := hheads p hp
  rw [hw, Option.any_some, Bool.or_eq_false_iff, decide_eq_false_iff_not] at hhead
  rcases hc with hc | hc
  · exact hhead.1 hc
  · exact absurd (hc.symm.trans hhead.2) (by decide)

/-- A dollar sign makes a variable of whatever stands behind it. -/
theorem readOperand_variable (name : String) : readOperand ("$" ++ name) = .variableRef name := by
  have hchars : ("$" ++ name).toList = '$' :: name.toList := by simp
  have hlookup : keywords.lookup ("$" ++ name) = none :=
    keywords_lookup_of_head (congrArg List.head? hchars) (.inl rfl)
  rw [readOperand, hlookup]
  simp only [hchars, String.ofList_toList]

/-- **Two quotes make text of whatever stands between them.** -/
theorem readOperand_quoted {q : Char} (hq : isQuote q = true) (s : String) :
    readOperand (String.singleton q ++ s ++ String.singleton q) = .string s := by
  have hchars : (String.singleton q ++ s ++ String.singleton q).toList =
      q :: (s.toList ++ [q]) := by
    simp
  have hlookup : keywords.lookup (String.singleton q ++ s ++ String.singleton q) = none :=
    keywords_lookup_of_head (congrArg List.head? hchars) (.inr hq)
  have hunquote : unquote? (q :: (s.toList ++ [q])) = some s.toList := by
    rw [unquote?, if_pos ⟨hq, by simp⟩, List.dropLast_concat]
  rw [readOperand, hlookup, readPlainOperand, hchars, hunquote]
  simp only [String.ofList_toList]
  split
  · next name hname =>
    obtain ⟨rfl, -⟩ := List.cons.inj hname
    cases hq
  · rfl

/-- A literal is read as the value that it is written for. -/
theorem IsLiteral.readOperand_eq {v : Value} {w : String} (h : IsLiteral v w) :
    readOperand w = v := by
  cases h with
  | undefined | null | trueLower | trueUpper | falseLower | falseUpper => rfl
  | variableRef => exact readOperand_variable _
  | string hq => exact readOperand_quoted hq _

/-! ## Literals and operators are words -/

/-- Whether text is a bare word: there is some, without white space, and a quote is not its first
character. -/
def isBareWord : List Char → Bool
  | [] => false
  | c :: cs => !isQuote c && (c :: cs).all (!isBlank ·)

theorem isWord_of_isBareWord {w : List Char} (h : isBareWord w = true) : IsWord w := by
  cases w with
  | nil => cases h
  | cons c cs =>
    rw [isBareWord, Bool.and_eq_true, Bool.not_eq_true', List.all_eq_true] at h
    refine .bare h.1 fun d hd => ?_
    have hd := h.2 d hd
    rwa [Bool.not_eq_true'] at hd

/-- A literal is one word. -/
theorem IsLiteral.isWord {v : Value} {w : String} (h : IsLiteral v w) : IsWord w.toList := by
  cases h with
  | undefined | null | trueLower | trueUpper | falseLower | falseUpper =>
    exact isWord_of_isBareWord (by decide)
  | @variableRef name hname =>
    have hchars : ("$" ++ name).toList = '$' :: name.toList := by simp
    rw [hchars]
    exact .bare (by decide) (List.forall_mem_cons.2 ⟨by decide, hname⟩)
  | @string q s hq hs =>
    have hchars : (String.singleton q ++ s ++ String.singleton q).toList =
        q :: s.toList ++ [q] := by
      simp
    rw [hchars]
    exact .quoted hq hs

/-- The symbol of an operator is one word. -/
theorem ArithOp.isWord_symbol (op : ArithOp) : IsWord op.symbol.toList := by
  have hall : ∀ op ∈ ArithOp.all, isBareWord op.symbol.toList = true := by decide
  exact isWord_of_isBareWord (hall op op.mem_all)

theorem TestOp.isWord_symbol (op : TestOp) : IsWord op.symbol.toList := by
  have hall : ∀ op ∈ TestOp.all, isBareWord op.symbol.toList = true := by decide
  exact isWord_of_isBareWord (hall op op.mem_all)

/-! ## Evaluating expressions -/

/-- The symbol of an arithmetic operator applies it. -/
theorem evalOperator_arith (op : ArithOp) (a b : Value) :
    evalOperator op.symbol a b = ((op.apply a b).map .value).mapError .value := by
  rw [evalOperator, ArithOp.ofSymbol?_symbol]

/-- The symbol of a test is the symbol of no arithmetic operator, and applies the test. -/
theorem evalOperator_test (op : TestOp) (a b : Value) :
    evalOperator op.symbol a b = ((op.apply a b).map .truth).mapError .value := by
  have hall : ∀ op ∈ TestOp.all, ArithOp.ofSymbol? op.symbol = none := by decide
  rw [evalOperator, hall op op.mem_all, TestOp.ofSymbol?_symbol]

/-- A word that is the symbol of no operator is not applied. -/
theorem evalOperator_of_unknown {word : String} (ha : ∀ op : ArithOp, word ≠ op.symbol)
    (ht : ∀ op : TestOp, word ≠ op.symbol) (a b : Value) :
    evalOperator word a b = .error (.unknownOperator word) := by
  have harith : ArithOp.ofSymbol? word = none := by
    simpa [ArithOp.ofSymbol?, List.find?_eq_none] using fun op _ h => ha op h.symm
  have htest : TestOp.ofSymbol? word = none := by
    simpa [TestOp.ofSymbol?, List.find?_eq_none] using fun op _ h => ht op h.symm
  rw [evalOperator, harith, htest]

/-- An operator that is applied with success is an arithmetic operator or a test. -/
theorem exists_of_evalOperator_eq_ok {word : String} {a b : Value} {o : Outcome}
    (h : evalOperator word a b = .ok o) :
    (∃ (op : ArithOp) (v : Value), word = op.symbol ∧ op.apply a b = .ok v ∧ o = .value v) ∨
      ∃ (op : TestOp) (t : Bool), word = op.symbol ∧ op.apply a b = .ok t ∧ o = .truth t := by
  by_cases harith : ∃ op : ArithOp, word = op.symbol
  · obtain ⟨op, rfl⟩ := harith
    rw [evalOperator_arith] at h
    cases happly : op.apply a b with
    | ok v =>
      rw [happly] at h
      cases h
      exact .inl ⟨op, v, rfl, happly, rfl⟩
    | error e =>
      rw [happly] at h
      cases h
  by_cases htest : ∃ op : TestOp, word = op.symbol
  · obtain ⟨op, rfl⟩ := htest
    rw [evalOperator_test] at h
    cases happly : op.apply a b with
    | ok t =>
      rw [happly] at h
      cases h
      exact .inr ⟨op, t, rfl, happly, rfl⟩
    | error e =>
      rw [happly] at h
      cases h
  · rw [evalOperator_of_unknown (not_exists.1 harith) (not_exists.1 htest)] at h
    cases h

/-- What words give: the views of a lone operand, the negated operand behind `neg`, or the result of
an operator on the operands around its symbol. -/
inductive Gives (read : String → Value) : List String → Outcome → Prop
  | operand (word : String) : Gives read [word] (.views (read word))
  | negation (word : String) : Gives read ["neg", word] (.value (read word).negate)
  | arith {op : ArithOp} {lhs rhs : String} {v : Value} :
      op.apply (read lhs) (read rhs) = .ok v → Gives read [lhs, op.symbol, rhs] (.value v)
  | test {op : TestOp} {lhs rhs : String} {b : Bool} :
      op.apply (read lhs) (read rhs) = .ok b → Gives read [lhs, op.symbol, rhs] (.truth b)

/-- **Words are evaluated with success exactly if they give the outcome.** -/
theorem evalWords_eq_ok_iff {read : String → Value} {words : List String} {o : Outcome} :
    evalWords read words = .ok o ↔ Gives read words o := by
  constructor
  · intro h
    match words with
    | [] => cases h
    | [word] =>
      cases h
      exact .operand word
    | [command, word] =>
      rw [evalWords] at h
      split at h
      · next hneg =>
        cases h
        rw [hneg]
        exact .negation word
      · cases h
    | [lhs, word, rhs] =>
      rcases exists_of_evalOperator_eq_ok h with
        ⟨op, v, rfl, happly, rfl⟩ | ⟨op, t, rfl, happly, rfl⟩
      · exact .arith happly
      · exact .test happly
    | _ :: _ :: _ :: _ :: _ => cases h
  · intro h
    cases h with
    | operand word => rfl
    | negation word => rfl
    | @arith op lhs rhs v happly => rw [evalWords, evalOperator_arith, happly]; rfl
    | @test op lhs rhs b happly => rw [evalWords, evalOperator_test, happly]; rfl

section
variable {a b : Value} {la lb : String}

/-- Three words with spaces between them, the outer two of them literals. -/
theorem evalLine_of_operator {symbol : String} (ha : IsLiteral a la) (hb : IsLiteral b lb)
    (hs : IsWord symbol.toList) :
    evalLine (la ++ " " ++ symbol ++ " " ++ lb) = evalOperator symbol a b := by
  have hline : Spaced ([la, symbol, lb].map String.toList)
      (la ++ " " ++ symbol ++ " " ++ lb).toList := by
    have hspaced := Spaced.cons_word ha.isWord (by decide : isBlank ' ' = true)
      (.cons_word hs (by decide : isBlank ' ' = true) (.word hb.isWord))
    simpa using hspaced
  rw [evalLine_of_spaced hline, evalWords, ha.readOperand_eq, hb.readOperand_eq]

/-- **A written expression is its operator applied to the values.** Whatever the values are that two
literals are written for, a symbol between the literals gives what its operator gives, a failure
included; `neg` before a literal gives the negated value, and a literal alone the views of its
value. -/
theorem evalLine_of_literals (ha : IsLiteral a la) (hb : IsLiteral b lb) :
    (∀ op : ArithOp, evalLine (la ++ " " ++ op.symbol ++ " " ++ lb) =
      ((op.apply a b).map .value).mapError .value) ∧
    (∀ op : TestOp, evalLine (la ++ " " ++ op.symbol ++ " " ++ lb) =
      ((op.apply a b).map .truth).mapError .value) ∧
    evalLine ("neg " ++ la) = .ok (.value a.negate) ∧
    evalLine la = .ok (.views a) := by
  have hspace : isBlank ' ' = true := by decide
  refine ⟨fun op => ?_, fun op => ?_, ?_, ?_⟩
  · rw [evalLine_of_operator ha hb op.isWord_symbol, evalOperator_arith]
  · rw [evalLine_of_operator ha hb op.isWord_symbol, evalOperator_test]
  · have hneg : IsWord "neg".toList := isWord_of_isBareWord (by decide)
    have hchars : ("neg " ++ la).toList = "neg".toList ++ ' ' :: la.toList := by simp
    have hline : Spaced (["neg", la].map String.toList) ("neg " ++ la).toList := by
      rw [hchars]
      exact .cons_word hneg hspace (.word ha.isWord)
    rw [evalLine_of_spaced hline, evalWords, if_pos rfl, ha.readOperand_eq]
  · have hline : Spaced ([la].map String.toList) la.toList := .word ha.isWord
    rw [evalLine_of_spaced hline, evalWords, ha.readOperand_eq]

/-- A text that looks like a number, and one that looks like a variable and holds the other
quote. -/
theorem evalLine_of_quoted_literals :
    IsLiteral (.string "1") "'1'" ∧ IsLiteral (.string "'$x' neg") "\"'$x' neg\"" ∧
    evalLine "'1' + \"'$x' neg\"" = .ok (.value (.string "1'$x' neg")) ∧
    evalLine "'1' - \"'$x' neg\"" = .error (.value (.incompatible .sub .string .string)) ∧
    evalLine "'1' != \"'$x' neg\"" = .ok (.truth true) ∧
    evalLine "neg '1'" = .ok (.value (.number (.nan .single false))) ∧
    evalLine "'1'" = .ok (.views (.string "1")) := by
  have ha : IsLiteral (.string "1") "'1'" := .string (by decide : isQuote '\'' = true) (by decide)
  have hb : IsLiteral (.string "'$x' neg") "\"'$x' neg\"" :=
    .string (by decide : isQuote '"' = true) (by decide)
  obtain ⟨harith, htest, hneg, hviews⟩ := evalLine_of_literals ha hb
  exact ⟨ha, hb, harith .add, harith .sub, htest .differ, hneg, hviews⟩

end

end ScriptCell
