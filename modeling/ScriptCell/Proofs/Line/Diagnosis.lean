import ScriptCell.Line.Diagnosis
import ScriptCell.Proofs.Line.Failure
import ScriptCell.Proofs.Text.Quoted
import ScriptCell.Proofs.Value.Order

/-!
# Which help is given

`Hint` lists the helps, `LineError.Shows` says that one of them stands below the message in what is
written for a failure, and `LineError.hint` says which of them belongs to a failure
(`LineError.shows_iff`). The help for a failure of the form is found by searching the message for
the words of an open quote, and a message can hold a word of the line. So a word that takes the
place of an operator and holds these words gets the help for an open quote, although every quote is
closed; apart from it each help is given for its cause and for no other (`help_by_cause`).
-/

namespace ScriptCell

/-! ## Searching the message -/

theorem occursIn_iff {p cs : List Char} : occursIn p cs = true ↔ p <:+: cs := by
  induction cs with
  | nil => rw [occursIn, List.isEmpty_iff, List.infix_nil]
  | cons c cs ih =>
    rw [occursIn, Bool.or_eq_true, ih, List.isPrefixOf_iff_prefix, List.infix_cons_iff]

/-- A character that does not occur in what is searched for parts the text that is searched. -/
theorem infix_append_cons_iff {p xs ys : List Char} {c : Char} (hc : c ∉ p) :
    p <:+: xs ++ c :: ys ↔ p <:+: xs ∨ p <:+: ys := by
  constructor
  · intro h
    rcases List.infix_append_iff_ne_nil.1 h with h | h | ⟨p₁, p₂, -, hp₂, rfl, -, hprefix⟩
    · exact .inl h
    · rcases List.infix_cons_iff.1 h with h | h
      · rcases List.prefix_cons_iff.1 h with rfl | ⟨p, rfl, -⟩
        · exact .inl (List.nil_infix)
        · exact absurd List.mem_cons_self hc
      · exact .inr h
    · rcases List.prefix_cons_iff.1 hprefix with rfl | ⟨p, rfl, -⟩
      · exact absurd rfl hp₂
      · exact absurd (List.mem_append_right p₁ List.mem_cons_self) hc
  · rintro (h | h)
    · exact h.trans (List.prefix_append _ _).isInfix
    · exact h.trans ((List.suffix_cons c ys).trans (List.suffix_append _ _)).isInfix

/-- A text holds the words that the message of an open quote is recognised by. -/
def SaysUnterminated (s : String) : Prop := "Unterminated string".toList <:+: s.toList

instance (s : String) : Decidable (SaysUnterminated s) := decidable_of_iff _ occursIn_iff

theorem saysUnterminated_iff {s : String} {cs : List Char} (h : s.toList = cs) :
    SaysUnterminated s ↔ "Unterminated string".toList <:+: cs := by
  rw [SaysUnterminated, h]

/-! ### The messages -/

theorem LineError.message_unterminated (q : Char) :
    (LineError.unterminated q).message =
      "Unterminated string starting with " ++ String.singleton q := rfl

theorem LineError.message_unknownOperator (word : String) :
    (LineError.unknownOperator word).message = "Unknown operator '" ++ word ++ "'" := rfl

theorem LineError.message_wordCount (count : Nat) : (LineError.wordCount count).message =
    "Expected '<a> <op> <b>', 'neg <a>' or a single operand, got " ++ Nat.repr count ++ " words" :=
  rfl

theorem saysUnterminated_unterminated (q : Char) :
    SaysUnterminated (LineError.unterminated q).message := by
  have hchars : ("Unterminated string starting with " ++ String.singleton q).toList =
      "Unterminated string".toList ++ (" starting with ".toList ++ [q]) := by simp
  rw [LineError.message_unterminated, saysUnterminated_iff hchars]
  exact (List.prefix_append _ _).isInfix

/-- The message about an unknown word says what the word says. -/
theorem saysUnterminated_unknownOperator {word : String} :
    SaysUnterminated (LineError.unknownOperator word).message ↔ SaysUnterminated word := by
  have hchars : ("Unknown operator '" ++ word ++ "'").toList =
      "Unknown operator ".toList ++ '\'' :: (word.toList ++ '\'' :: []) := by simp
  have hquote : '\'' ∉ "Unterminated string".toList := by decide
  have hfront : ¬ "Unterminated string".toList <:+: "Unknown operator ".toList := fun h =>
    absurd h.length_le (by decide)
  have hback : ¬ "Unterminated string".toList <:+: [] := fun h => absurd h.length_le (by decide)
  have hword : "Unterminated string".toList <:+: word.toList ++ '\'' :: [] ↔
      SaysUnterminated word :=
    (infix_append_cons_iff hquote).trans (or_iff_left hback)
  rw [LineError.message_unknownOperator, saysUnterminated_iff hchars]
  exact (infix_append_cons_iff hquote).trans ((or_iff_right hfront).trans hword)

/-- A text without the capital `U` does not hold the words. -/
theorem not_saysUnterminated_of_notMem {s : String} (h : 'U' ∉ s.toList) : ¬ SaysUnterminated s :=
  fun hs => h (List.IsInfix.mem (by decide : 'U' ∈ "Unterminated string".toList) hs)

theorem not_saysUnterminated_missingOperand : ¬ SaysUnterminated LineError.missingOperand.message :=
  not_saysUnterminated_of_notMem (s := "Expected an operand") (by decide)

theorem not_saysUnterminated_wordCount (count : Nat) :
    ¬ SaysUnterminated (LineError.wordCount count).message := by
  have hfront : 'U' ∉ "Expected '<a> <op> <b>', 'neg <a>' or a single operand, got ".toList := by
    decide
  have hdigits : 'U' ∉ (Nat.repr count).toList := by
    rw [Nat.repr_eq_ofList_toDigits, String.toList_ofList]
    exact fun h => absurd (Nat.isDigit_of_mem_toDigits (by decide) (by decide) h) (by decide)
  have hback : 'U' ∉ " words".toList := by decide
  refine not_saysUnterminated_of_notMem ?_
  rw [LineError.message_wordCount, String.toList_append, String.toList_append, List.mem_append,
    List.mem_append]
  exact not_or.2 ⟨not_or.2 ⟨hfront, hdigits⟩, hback⟩

/-! ## The helps -/

/-- The helps that are given below a message. -/
inductive Hint where
  /-- A quote has to be closed. -/
  | closingQuote
  /-- The forms of a line and the operators. -/
  | form
  /-- A variable has to be resolved. -/
  | resolve (name : String)
  /-- Text is accepted by `+` only. -/
  | onlyPlus
  /-- Arithmetic needs a number. -/
  | numberNeeded
  /-- Ordering needs values of one kind. -/
  | sameKind
  /-- The host types that a value can hold. -/
  | hostTypes
  deriving DecidableEq

/-- The first line of a help. -/
def Hint.title : Hint → String
  | .closingQuote => "Help: Text operands need a closing quote."
  | .form => "Help: Write '<a> <op> <b>', 'neg <a>', or a single operand."
  | .resolve _ => "Help: Variable references have no value of their own."
  | .onlyPlus => "Help: Only '+' accepts text operands."
  | .numberNeeded => "Help: Arithmetic needs a number on at least one side."
  | .sameKind => "Help: Ordering is only defined between values of the same kind."
  | .hostTypes => "Help: Values hold none, text, numbers or bools."

/-- What is said below the first line of a help. -/
def Hint.details : Hint → List String
  | .form => ["Operators: + - * / % < > <= >= == !="]
  | .resolve name => ["Resolve '$" ++ name ++ "' to a concrete value before using it."]
  | .numberNeeded =>
    ["• '+' also sums bool+bool and null+null",
      "• '- * / %' accept number with number, null or undefined"]
  | .sameKind => ["Use '==' to test values of different kinds."]
  | .closingQuote | .onlyPlus | .hostTypes => []

/-- The lines of a help. -/
def Hint.lines (h : Hint) : List String := helpLine h.title :: h.details.map detailLine

/-- A help as it is written, each of its lines ended. -/
def Hint.text (h : Hint) : String := String.join (h.lines.map (· ++ "\n"))

/-- Helps of one title are the same but for the name of a variable. -/
theorem Hint.eq_of_title_eq {h h' : Hint} (htitle : h.title = h'.title) :
    h = h' ∨ ∃ name name', h = .resolve name ∧ h' = .resolve name' := by
  cases h <;> cases h'
  case resolve.resolve name name' => exact .inr ⟨name, name', rfl, rfl⟩
  all_goals first | exact .inl rfl | exact absurd htitle (by simp [title])

theorem Hint.escape_notMem_title (h : Hint) : '\x1b' ∉ h.title.toList := by
  cases h with
  | resolve name => exact (by decide : '\x1b' ∉ (Hint.resolve "").title.toList)
  | _ => decide

/-- **Helps that are written alike are the same**, the name of the variable included. -/
theorem Hint.text_injective : Function.Injective Hint.text := by
  intro h h' htext
  have hchars := congrArg String.toList htext
  simp only [text, lines, helpLine, Colour.paint, List.map_cons, String.join_cons,
    String.toList_append, List.append_assoc, List.append_cancel_left_eq] at hchars
  -- the first control sequence behind a title ends it
  obtain ⟨htitle, hrest⟩ :=
    append_cons_inj h.escape_notMem_title h'.escape_notMem_title hchars
  obtain rfl | ⟨name, name', rfl, rfl⟩ := eq_of_title_eq (String.toList_inj.1 htitle)
  · rfl
  · simpa [details, detailLine, Colour.paint, String.toList_inj] using hrest

/-- What is written for a failure has one help below the message, and nothing else. -/
def LineError.Shows (e : LineError) (label : String) (h : Hint) : Prop :=
  e.diagnose label =
    bold (Colour.red.paint label) ++ ": " ++ Colour.red.paint e.message ++ "\n" ++ h.text

/-- The help for a failure of an operation. -/
def Error.hint : Error → Hint
  | .unresolved name _ => .resolve name
  | .incompatible _ lhs rhs => if lhs = .string ∨ rhs = .string then .onlyPlus else .numberNeeded
  | .incomparable _ _ => .sameKind
  | .unsupportedType _ => .hostTypes

/-- The help for a failure. A word in the place of an operator can pass for an open quote. -/
def LineError.hint : LineError → Hint
  | .unterminated _ => .closingQuote
  | .unknownOperator word => if SaysUnterminated word then .closingQuote else .form
  | .missingOperand | .wordCount _ => .form
  | .value e => e.hint

theorem Error.help_eq_lines (e : Error) : e.help = e.hint.lines := by
  cases e with
  | incompatible op lhs rhs =>
    rw [help, hint]
    split <;> rfl
  | unsupportedType | unresolved | incomparable => rfl

/-- The search of the message finds the help for an open quote, or else the help for the form. -/
theorem formHelp_eq (message : String) :
    formHelp message =
      (if SaysUnterminated message then Hint.closingQuote else Hint.form).lines := by
  by_cases h : SaysUnterminated message
  · rw [if_pos h]
    exact if_pos (occursIn_iff.2 h)
  · rw [if_neg h]
    exact if_neg (mt occursIn_iff.1 h)

/-- **The help for a failure is the one that belongs to it.** -/
theorem LineError.help_eq_lines (e : LineError) : e.help = e.hint.lines := by
  cases e with
  | unterminated q =>
    exact (formHelp_eq _).trans (by rw [if_pos (saysUnterminated_unterminated q), hint])
  | missingOperand =>
    exact (formHelp_eq _).trans (by rw [if_neg not_saysUnterminated_missingOperand, hint])
  | wordCount count =>
    exact (formHelp_eq _).trans (by rw [if_neg (not_saysUnterminated_wordCount count), hint])
  | unknownOperator word =>
    refine (formHelp_eq _).trans ?_
    simp only [saysUnterminated_unknownOperator, hint]
  | value e => exact e.help_eq_lines

/-- A failure with another help than those for the form is one of an operation. -/
theorem LineError.exists_eq_value {e : LineError} (hquote : e.hint ≠ .closingQuote)
    (hform : e.hint ≠ .form) :
    ∃ e', e = .value e' := by
  cases e with
  | unterminated => exact absurd rfl hquote
  | missingOperand | wordCount => exact absurd rfl hform
  | unknownOperator word =>
    by_cases hsays : SaysUnterminated word
    · exact absurd (if_pos hsays) hquote
    · exact absurd (if_neg hsays) hform
  | value e => exact ⟨e, rfl⟩

/-- **The help that is written is the one that belongs to the failure.** -/
theorem LineError.shows_iff {e : LineError} {label : String} {h : Hint} :
    e.Shows label h ↔ e.hint = h := by
  have hdiagnose : e.Shows label e.hint := by
    rw [Shows, diagnose, diagnosis, help_eq_lines]
    exact String.join_cons
  constructor
  · intro hshows
    rw [Shows, hdiagnose] at hshows
    exact Hint.text_injective ((String.append_right_inj _).1 hshows)
  · rintro rfl
    exact hdiagnose

theorem LineError.help_eq_lines_iff {e : LineError} {h : Hint} : e.help = h.lines ↔ e.hint = h := by
  constructor
  · intro hhelp
    rw [help_eq_lines] at hhelp
    refine Hint.text_injective ?_
    rw [Hint.text, Hint.text, hhelp]
  · rintro rfl
    exact e.help_eq_lines

/-! ## Failures of operations -/

/-- A failure of an operation has no help for the form of a line. -/
theorem Error.hint_ne_form (e : Error) : e.hint ≠ .closingQuote ∧ e.hint ≠ .form := by
  cases e with
  | incompatible op lhs rhs =>
    rw [hint]
    split <;> exact ⟨nofun, nofun⟩
  | unsupportedType | unresolved | incomparable => exact ⟨nofun, nofun⟩

/-- The help about a variable names the variable of the failure. -/
theorem Error.hint_eq_resolve_iff {e : Error} {name : String} :
    e.hint = .resolve name ↔ ∃ target, e = .unresolved name target := by
  cases e with
  | incompatible op lhs rhs =>
    rw [hint]
    split <;> simp
  | unsupportedType | unresolved | incomparable => simp [hint]

section
variable {op : ArithOp} {a b : Value} {e : Error}

theorem Error.hint_incompatible_of_text (ht : a.TextSide b) :
    (Error.incompatible op a.kind b.kind).hint = .onlyPlus := if_pos ht

theorem Error.hint_incompatible_of_no_text (ht : ¬ a.TextSide b) :
    (Error.incompatible op a.kind b.kind).hint = .numberNeeded := if_neg ht

/-- Arithmetic that fails has the help about text if it is no sum and one side is text. -/
theorem ArithOp.hint_of_apply_eq_error (h : op.apply a b = .error e) :
    e.hint ≠ .sameKind ∧ (e.hint = .onlyPlus ↔ op ≠ .add ∧ a.TextSide b) := by
  cases apply_eq_iff.1 h with
  | unresolved hop => exact ⟨nofun, iff_of_false nofun fun h => h.1 hop⟩
  | noSum hop ht =>
    rw [Error.hint_incompatible_of_no_text ht]
    exact ⟨nofun, iff_of_false nofun fun h => h.1 hop⟩
  | noCombine hop =>
    by_cases ht : a.TextSide b
    · rw [Error.hint_incompatible_of_text ht]
      exact ⟨nofun, iff_of_true rfl ⟨hop, ht⟩⟩
    · rw [Error.hint_incompatible_of_no_text ht]
      exact ⟨nofun, iff_of_false nofun fun h => ht h.2⟩

theorem Value.Unordered.hint_ne (h : a.Unordered b e) : e.hint ≠ .onlyPlus := by
  cases h <;> nofun

theorem Value.Unordered.hint_eq_sameKind_iff (h : a.Unordered b e) :
    e.hint = .sameKind ↔ a.kind ≠ b.kind ∧ (a.hasPayload = true ∨ b.hasPayload = true) := by
  cases h with
  | kinds hk hp => exact iff_of_true rfl ⟨hk, hp⟩
  | unresolved => exact iff_of_false nofun fun h => h.1 rfl

/-- Text may not be combined with anything. -/
theorem Value.TextSide.not_combinable (h : a.TextSide b) : ¬ a.Combinable b := by
  rintro (⟨ha, hb⟩ | ⟨hb, ha⟩) <;> rcases h with h | h <;> simp_all

/-- A variable that is not resolved is one of the operands. -/
theorem ArithOp.operand_of_unresolved {name : String} {target : Kind}
    (h : op.apply a b = .error (.unresolved name target)) :
    a = .variableRef name ∨ b = .variableRef name := by
  obtain ⟨-, -, ⟨x, -, hb⟩ | ⟨x, ha, -⟩⟩ := apply_eq_unresolved_iff.1 h
  · exact .inr hb
  · exact .inl ha

end

/-! ## The help for a cause -/

section
variable {read : String → Value} {i : Input} {e : LineError}

/-- An input without a form has the help for the form. -/
theorem Input.IsMisshapen.fails (h : i.IsMisshapen) (read : String → Value) :
    ∃ e, Fails read i e ∧ e.hint = .form := by
  obtain ⟨words, hsplit, rfl | ⟨command, word, rfl, hneg⟩ | hlen⟩ := h
  · exact ⟨_, .empty hsplit, rfl⟩
  · exact ⟨_, .two hsplit hneg, rfl⟩
  · exact ⟨_, .many hsplit hlen, rfl⟩

theorem Fails.hint_eq_closingQuote_iff (h : Fails read i e) :
    e.hint = .closingQuote ↔
      i.IsUnterminated ∨ ∃ word, i.HasUnknown word ∧ SaysUnterminated word := by
  constructor
  · intro hhint
    cases h with
    | unterminated hsplit => exact .inl ⟨_, hsplit⟩
    | empty | two | many => cases hhint
    | @unknown word hword =>
      by_cases hsays : SaysUnterminated word
      · exact .inr ⟨word, hword, hsays⟩
      · rw [LineError.hint, if_neg hsays] at hhint
        cases hhint
    | @arith _ _ _ e | @order _ _ _ e => exact absurd hhint e.hint_ne_form.1
  · rintro (⟨q, hsplit⟩ | ⟨word, hword, hsays⟩)
    · rw [h.unique (.unterminated hsplit), LineError.hint]
    · rw [h.unique (.unknown hword), LineError.hint, if_pos hsays]

theorem Fails.hint_eq_form_iff (h : Fails read i e) :
    e.hint = .form ↔ i.IsMisshapen ∨ ∃ word, i.HasUnknown word ∧ ¬ SaysUnterminated word := by
  constructor
  · intro hhint
    cases h with
    | unterminated => cases hhint
    | empty hsplit => exact .inl ⟨_, hsplit, .inl rfl⟩
    | two hsplit hneg => exact .inl ⟨_, hsplit, .inr (.inl ⟨_, _, rfl, hneg⟩)⟩
    | many hsplit hlen => exact .inl ⟨_, hsplit, .inr (.inr hlen)⟩
    | @unknown word hword =>
      refine .inr ⟨word, hword, fun hsays => ?_⟩
      rw [LineError.hint, if_pos hsays] at hhint
      cases hhint
    | @arith _ _ _ e | @order _ _ _ e => exact absurd hhint e.hint_ne_form.2
  · rintro (hform | ⟨word, hword, hsays⟩)
    · obtain ⟨e', h', hhint⟩ := hform.fails read
      rw [h.unique h', hhint]
    · rw [h.unique (.unknown hword), LineError.hint, if_neg hsays]

theorem Fails.hint_eq_onlyPlus_iff (h : Fails read i e) :
    e.hint = .onlyPlus ↔
      ∃ (op : ArithOp) (a b : Value), op ≠ .add ∧ i.Applies read op.symbol a b ∧ a.TextSide b := by
  constructor
  · intro hhint
    obtain ⟨e, rfl⟩ := e.exists_eq_value (by simp [hhint]) (by simp [hhint])
    cases h with
    | arith happlies h =>
      obtain ⟨hop, ht⟩ := (ArithOp.hint_of_apply_eq_error h).2.1 hhint
      exact ⟨_, _, _, hop, happlies, ht⟩
    | order _ h => exact absurd hhint (OrderOp.apply_eq_error_iff.1 h).hint_ne
  · rintro ⟨op, a, b, hop, happlies, ht⟩
    have happly := ArithOp.apply_eq_reject (ArithOp.rule_of_not_combinable hop ht.not_combinable)
    rw [h.unique (.arith happlies happly)]
    exact (ArithOp.hint_of_apply_eq_error happly).2.2 ⟨hop, ht⟩

theorem Fails.hint_eq_sameKind_iff (h : Fails read i e) :
    e.hint = .sameKind ↔ ∃ (op : OrderOp) (a b : Value), i.Applies read op.symbol a b ∧
      a.kind ≠ b.kind ∧ (a.hasPayload = true ∨ b.hasPayload = true) := by
  constructor
  · intro hhint
    obtain ⟨e, rfl⟩ := e.exists_eq_value (by simp [hhint]) (by simp [hhint])
    cases h with
    | arith _ h => exact absurd hhint (ArithOp.hint_of_apply_eq_error h).1
    | order happlies h =>
      exact ⟨_, _, _, happlies, (OrderOp.apply_eq_error_iff.1 h).hint_eq_sameKind_iff.1 hhint⟩
  · rintro ⟨op, a, b, happlies, hk, hp⟩
    rw [h.unique (.order happlies (OrderOp.apply_eq_error_iff.2 (.kinds hk hp)))]
    rfl

theorem LineError.hint_eq_resolve_iff {name : String} :
    e.hint = .resolve name ↔ ∃ target, e = .value (.unresolved name target) := by
  constructor
  · intro hhint
    obtain ⟨e, rfl⟩ := e.exists_eq_value (by simp [hhint]) (by simp [hhint])
    obtain ⟨target, rfl⟩ := Error.hint_eq_resolve_iff.1 hhint
    exact ⟨target, rfl⟩
  · rintro ⟨target, rfl⟩
    rfl

/-- The variable that a failure names is one of the operands. -/
theorem Fails.operand_of_unresolved {name : String} {target : Kind}
    (h : Fails read i (.value (.unresolved name target))) :
    ∃ (word : String) (a b : Value), i.Applies read word a b ∧
      (a = .variableRef name ∨ b = .variableRef name) := by
  cases h with
  | arith happlies h => exact ⟨_, _, _, happlies, ArithOp.operand_of_unresolved h⟩
  | order happlies h =>
    cases OrderOp.apply_eq_error_iff.1 h with
    | unresolved => exact ⟨_, _, _, happlies, .inl rfl⟩

/-- **Each help is given for its cause**, whatever the words of the input are and however operands
are read. What is written for the failure has below the message the help for an open quote if a
quote is never closed, the help for the form if the number of words or the command of two words is
wrong, the help about text if text meets an operator other than `+`, the help about a variable if a
variable has no value, and then the variable is an operand, and the help about kinds if an ordering
operator meets two kinds of which one has a payload; and it has each of them for nothing else. An
unknown operator has the help for the form, unless the word in its place says that a quote is
open. -/
theorem help_by_cause (h : i.eval read = .error e) (label : String) :
    (e.Shows label .closingQuote ↔
      i.IsUnterminated ∨ ∃ word, i.HasUnknown word ∧ SaysUnterminated word) ∧
    (e.Shows label .form ↔
      i.IsMisshapen ∨ ∃ word, i.HasUnknown word ∧ ¬ SaysUnterminated word) ∧
    (e.Shows label .onlyPlus ↔
      ∃ (op : ArithOp) (a b : Value), op ≠ .add ∧ i.Applies read op.symbol a b ∧ a.TextSide b) ∧
    (∀ name, e.Shows label (.resolve name) ↔ ∃ target, e = .value (.unresolved name target)) ∧
    (∀ name target, e = .value (.unresolved name target) →
      ∃ (word : String) (a b : Value), i.Applies read word a b ∧
        (a = .variableRef name ∨ b = .variableRef name)) ∧
    (e.Shows label .sameKind ↔ ∃ (op : OrderOp) (a b : Value), i.Applies read op.symbol a b ∧
      a.kind ≠ b.kind ∧ (a.hasPayload = true ∨ b.hasPayload = true)) ∧
    (∀ hint, e.help = Hint.lines hint ↔ e.Shows label hint) := by
  have hfails := fails_of_eval h
  simp only [LineError.help_eq_lines_iff, LineError.shows_iff]
  refine ⟨hfails.hint_eq_closingQuote_iff, hfails.hint_eq_form_iff, hfails.hint_eq_onlyPlus_iff,
    fun name => LineError.hint_eq_resolve_iff, ?_, hfails.hint_eq_sameKind_iff,
    fun _ => trivial⟩
  rintro name target rfl
  exact hfails.operand_of_unresolved

/-- A variable times text. -/
theorem help_of_variable_times_text :
    (Input.line "$rate * 'x'").eval readOperand =
      .error (.value (.incompatible .mul .variableRef .string)) ∧
    (LineError.value (.incompatible .mul .variableRef .string)).Shows "Error" .onlyPlus := by
  have heval : (Input.line "$rate * 'x'").eval readOperand =
      .error (.value (.incompatible .mul .variableRef .string)) := rfl
  exact ⟨heval, (help_by_cause heval "Error").2.2.1.2
    ⟨.mul, .variableRef "rate", .string "x", nofun, ⟨"$rate", "'x'", rfl, rfl, rfl⟩, .inr rfl⟩⟩

/-- The quotes of this line are closed, and it has the help for an open quote. -/
theorem closed_quote_has_help_for_open_quote :
    (Input.line "a 'Unterminated string' b").eval readOperand =
      .error (.unknownOperator "'Unterminated string'") ∧
    (Input.line "a 'Unterminated string' b").split = .ok ["a", "'Unterminated string'", "b"] ∧
    ¬ (Input.line "a 'Unterminated string' b").IsUnterminated ∧
    (LineError.unknownOperator "'Unterminated string'").Shows "Error" .closingQuote ∧
    ¬ (LineError.unknownOperator "'Unterminated string'").Shows "Error" .form := by
  have hsplit : (Input.line "a 'Unterminated string' b").split =
      .ok ["a", "'Unterminated string'", "b"] := rfl
  have hhint : (LineError.unknownOperator "'Unterminated string'").hint = .closingQuote := by decide
  refine ⟨rfl, hsplit, ?_, LineError.shows_iff.2 hhint, fun h => ?_⟩
  · rintro ⟨q, hq⟩
    rw [hsplit] at hq
    cases hq
  · rw [LineError.shows_iff, hhint] at h
    cases h

end

end ScriptCell
