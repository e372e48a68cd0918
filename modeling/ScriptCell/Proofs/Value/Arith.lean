import ScriptCell.Value.Arith

/-!
# The results of arithmetic

`ArithOp.Yields` states the rules of arithmetic one by one, each with the negations of the rules
that come before it. `ArithOp.apply_eq_iff` says that an operator gives exactly the results that
these rules allow, so no two of them overlap and one always applies. Which results and which
failures there are is then read off the rules (`ArithOp.apply_ok_kind`,
`ArithOp.apply_eq_unresolved_iff`).
-/

namespace ScriptCell

/-! ## The conditions of the rules -/

namespace Value

/-- One side is text. -/
def TextSide (a b : Value) : Prop := a.kind = .string ∨ b.kind = .string

/-- One side is not known, and the other is null or a number. -/
def UnknownSide (a b : Value) : Prop :=
  a.kind = .undefined ∧ (b.kind = .null ∨ b.kind = .number) ∨
    b.kind = .undefined ∧ (a.kind = .null ∨ a.kind = .number)

/-- A number is on either side, or both sides are truth values, or both are null. -/
def Summable (a b : Value) : Prop :=
  (a.kind = .number ∨ b.kind = .number) ∨ (a.kind = .bool ∧ b.kind = .bool) ∨
    (a.kind = .null ∧ b.kind = .null)

/-- A number is on one side, and on the other a number or a value without payload. -/
def Combinable (a b : Value) : Prop :=
  a.kind = .number ∧ (b.kind = .number ∨ b.kind = .undefined ∨ b.kind = .null) ∨
    b.kind = .number ∧ (a.kind = .number ∨ a.kind = .undefined ∨ a.kind = .null)

/-- One side is a number and the other the variable of this name. -/
def VariableSide (name : String) (a b : Value) : Prop :=
  (∃ x, a = .number x ∧ b = .variableRef name) ∨ ∃ x, a = .variableRef name ∧ b = .number x

end Value

namespace ArithOp

/-- The result that the first rule which matches gives for two values. -/
inductive Yields (op : ArithOp) (a b : Value) : Except Error Value → Prop
  | join : op = .add → a.TextSide b → Yields op a b (.ok (.string (a.rawText ++ b.rawText)))
  | unknown : op = .add → ¬ a.TextSide b → a.UnknownSide b →
      Yields op a b (.ok (.number (.nan .single false)))
  | sum {x y : Single} : op = .add → ¬ a.TextSide b → ¬ a.UnknownSide b → a.Summable b →
      a.numberView = .ok x → b.numberView = .ok y → Yields op a b (.ok (.number (x.add y)))
  | unresolved {name : String} : op = .add → a.VariableSide name b →
      Yields op a b (.error (.unresolved name .number))
  | noSum : op = .add → ¬ a.TextSide b → ¬ a.UnknownSide b → ¬ a.Summable b →
      Yields op a b (.error (.incompatible op a.kind b.kind))
  | combine {x y z : Single} : a.Combinable b → a.numberView = .ok x → b.numberView = .ok y →
      (op = .sub ∧ z = x.sub y ∨ op = .mul ∧ z = x.mul y ∨ op = .div ∧ z = x.div y ∨
        op = .rem ∧ z = x.rem y) →
      Yields op a b (.ok (.number z))
  | noCombine : op ≠ .add → ¬ a.Combinable b →
      Yields op a b (.error (.incompatible op a.kind b.kind))

/-! ## The rule of two kinds -/

theorem rule_add_of_text {a b : Value} (h : a.TextSide b) :
    add.rule a.kind b.kind = .join := if_pos h

theorem rule_add_of_unknown {a b : Value} (ht : ¬ a.TextSide b) (hu : a.UnknownSide b) :
    add.rule a.kind b.kind = .unknown := (if_neg ht).trans (if_pos hu)

theorem rule_add_of_summable {a b : Value} (ht : ¬ a.TextSide b) (hu : ¬ a.UnknownSide b)
    (hs : a.Summable b) : add.rule a.kind b.kind = .compute := by
  refine (if_neg ht).trans ((if_neg hu).trans (if_pos ?_))
  unfold Value.Summable at hs
  grind

theorem rule_add_of_not_summable {a b : Value} (ht : ¬ a.TextSide b) (hu : ¬ a.UnknownSide b)
    (hs : ¬ a.Summable b) : add.rule a.kind b.kind = .reject := by
  refine (if_neg ht).trans ((if_neg hu).trans (if_neg ?_))
  unfold Value.Summable at hs
  grind

theorem rule_of_ne_add {op : ArithOp} (h : op ≠ .add) : op.rule = productRule := by
  cases op with
  | add => exact absurd rfl h
  | sub | mul | div | rem => rfl

theorem rule_of_combinable {op : ArithOp} {a b : Value} (h : op ≠ .add) (hc : a.Combinable b) :
    op.rule a.kind b.kind = .compute := by
  rw [rule_of_ne_add h]
  exact if_pos (by simpa [Value.Combinable, joinsNumber, or_assoc] using hc)

theorem rule_of_not_combinable {op : ArithOp} {a b : Value} (h : op ≠ .add)
    (hc : ¬ a.Combinable b) : op.rule a.kind b.kind = .reject := by
  rw [rule_of_ne_add h]
  exact if_neg (by simpa [Value.Combinable, joinsNumber, or_assoc] using hc)

/-! ## Computing on the views -/

theorem apply_eq_compute {op : ArithOp} {a b : Value} {x y : Single}
    (h : op.rule a.kind b.kind = .compute) (hx : a.numberView = .ok x) (hy : b.numberView = .ok y) :
    op.apply a b = .ok (.number (op.onNumbers x y)) := by
  simp only [apply, h, hx, hy]
  rfl

theorem apply_eq_error_left {op : ArithOp} {a b : Value} {e : Error}
    (h : op.rule a.kind b.kind = .compute) (hx : a.numberView = .error e) :
    op.apply a b = .error e := by
  simp only [apply, h, hx]
  rfl

theorem apply_eq_error_right {op : ArithOp} {a b : Value} {x : Single} {e : Error}
    (h : op.rule a.kind b.kind = .compute) (hx : a.numberView = .ok x)
    (hy : b.numberView = .error e) : op.apply a b = .error e := by
  simp only [apply, h, hx, hy]
  rfl

end ArithOp

namespace Value

theorem exists_eq_variableRef {v : Value} (h : v.kind = .variableRef) :
    ∃ name, v = .variableRef name := by
  cases v with
  | variableRef name => exact ⟨name, rfl⟩
  | _ => cases h

/-- Every value but a variable has a number view. -/
theorem exists_numberView (v : Value) :
    (∃ x, v.numberView = .ok x) ∨ ∃ name, v = .variableRef name := by
  cases v with
  | variableRef name => exact .inr ⟨name, rfl⟩
  | _ => exact .inl ⟨_, rfl⟩

/-- A number may not be combined with a variable. -/
theorem Combinable.exists_numberView {a b : Value} (h : a.Combinable b) :
    ∃ x y, a.numberView = .ok x ∧ b.numberView = .ok y := by
  rcases a.exists_numberView with ⟨x, hx⟩ | ⟨name, rfl⟩
  · rcases b.exists_numberView with ⟨y, hy⟩ | ⟨name, rfl⟩
    · exact ⟨x, y, hx, hy⟩
    · simp [Combinable] at h
  · simp [Combinable] at h

/-- If a variable stands in a sum that has a rule, the other side is a number. -/
theorem Summable.variableSide {a b : Value} (ht : ¬ a.TextSide b) (h : a.Summable b) :
    (∃ x y, a.numberView = .ok x ∧ b.numberView = .ok y) ∨ ∃ name, a.VariableSide name b := by
  rcases a.exists_numberView with ⟨x, hx⟩ | ⟨name, rfl⟩
  · rcases b.exists_numberView with ⟨y, hy⟩ | ⟨name, rfl⟩
    · exact .inl ⟨x, y, hx, hy⟩
    · refine .inr ⟨name, ?_⟩
      cases a <;> simp_all [Summable, VariableSide]
  · refine .inr ⟨name, ?_⟩
    cases b <;> simp_all [Summable, VariableSide]

theorem VariableSide.not_textSide {a b : Value} {name : String} (h : a.VariableSide name b) :
    ¬ a.TextSide b := by
  rcases h with ⟨x, rfl, rfl⟩ | ⟨x, rfl, rfl⟩ <;> simp [TextSide]

theorem VariableSide.not_unknownSide {a b : Value} {name : String} (h : a.VariableSide name b) :
    ¬ a.UnknownSide b := by
  rcases h with ⟨x, rfl, rfl⟩ | ⟨x, rfl, rfl⟩ <;> simp [UnknownSide]

theorem VariableSide.summable {a b : Value} {name : String} (h : a.VariableSide name b) :
    a.Summable b := by
  rcases h with ⟨x, rfl, rfl⟩ | ⟨x, rfl, rfl⟩ <;> simp [Summable]

end Value

namespace ArithOp

/-- A sum of a number and a variable fails with the variable. -/
theorem apply_add_of_variableSide {a b : Value} {name : String} (h : a.VariableSide name b) :
    add.apply a b = .error (.unresolved name .number) := by
  have hr := rule_add_of_summable h.not_textSide h.not_unknownSide h.summable
  rcases h with ⟨x, rfl, rfl⟩ | ⟨x, rfl, rfl⟩
  · exact apply_eq_error_right hr rfl rfl
  · exact apply_eq_error_left hr rfl

/-! ## The rules and the results -/

/-- Every result is one that the rules allow. -/
theorem yields_apply (op : ArithOp) (a b : Value) : op.Yields a b (op.apply a b) := by
  by_cases hop : op = .add
  · subst hop
    by_cases ht : a.TextSide b
    · rw [apply_eq_join (rule_add_of_text ht)]
      exact .join rfl ht
    by_cases hu : a.UnknownSide b
    · rw [apply_eq_unknown (rule_add_of_unknown ht hu)]
      exact .unknown rfl ht hu
    by_cases hs : a.Summable b
    · rcases hs.variableSide ht with ⟨x, y, hx, hy⟩ | ⟨name, hv⟩
      · rw [apply_eq_compute (rule_add_of_summable ht hu hs) hx hy]
        exact .sum rfl ht hu hs hx hy
      · rw [apply_add_of_variableSide hv]
        exact .unresolved rfl hv
    · rw [apply_eq_reject (rule_add_of_not_summable ht hu hs)]
      exact .noSum rfl ht hu hs
  · by_cases hc : a.Combinable b
    · obtain ⟨x, y, hx, hy⟩ := hc.exists_numberView
      rw [apply_eq_compute (rule_of_combinable hop hc) hx hy]
      refine .combine hc hx hy ?_
      cases op with
      | add => exact absurd rfl hop
      | sub | mul | div | rem => simp [onNumbers]
    · rw [apply_eq_reject (rule_of_not_combinable hop hc)]
      exact .noCombine hop hc

/-- The rules allow no other result. -/
theorem apply_of_yields {op : ArithOp} {a b : Value} {r : Except Error Value}
    (h : op.Yields a b r) : op.apply a b = r := by
  cases h with
  | join hop ht => subst hop; exact apply_eq_join (rule_add_of_text ht)
  | unknown hop ht hu => subst hop; exact apply_eq_unknown (rule_add_of_unknown ht hu)
  | sum hop ht hu hs hx hy =>
    subst hop
    exact apply_eq_compute (rule_add_of_summable ht hu hs) hx hy
  | unresolved hop hv => subst hop; exact apply_add_of_variableSide hv
  | noSum hop ht hu hs => subst hop; exact apply_eq_reject (rule_add_of_not_summable ht hu hs)
  | combine hc hx hy hz =>
    rcases hz with ⟨rfl, rfl⟩ | ⟨rfl, rfl⟩ | ⟨rfl, rfl⟩ | ⟨rfl, rfl⟩ <;>
      exact apply_eq_compute (rule_of_combinable (by decide) hc) hx hy
  | noCombine hop hc => exact apply_eq_reject (rule_of_not_combinable hop hc)

/-- **The results are those of the rules.** -/
theorem apply_eq_iff {op : ArithOp} {a b : Value} {r : Except Error Value} :
    op.apply a b = r ↔ op.Yields a b r :=
  ⟨fun h => h ▸ yields_apply op a b, apply_of_yields⟩

/-- A result is a number or text. -/
theorem apply_ok_kind {op : ArithOp} {a b v : Value} (h : op.apply a b = .ok v) :
    v.kind = .number ∨ v.kind = .string := by
  cases apply_eq_iff.1 h with
  | join => exact .inr rfl
  | unknown | sum | combine => exact .inl rfl

/-- A refusal names the operator and the kinds of its operands in their order. -/
theorem eq_of_apply_eq_incompatible {op op' : ArithOp} {a b : Value} {k l : Kind}
    (h : op.apply a b = .error (.incompatible op' k l)) : op' = op ∧ k = a.kind ∧ l = b.kind := by
  cases apply_eq_iff.1 h with
  | noSum | noCombine => exact ⟨rfl, rfl, rfl⟩

/-- A view fails in sums of a number and a variable only. -/
theorem apply_eq_unresolved_iff {op : ArithOp} {a b : Value} {name : String} {target : Kind} :
    op.apply a b = .error (.unresolved name target) ↔
      op = .add ∧ target = .number ∧ a.VariableSide name b := by
  constructor
  · intro h
    cases apply_eq_iff.1 h with
    | unresolved hop hv => exact ⟨hop, rfl, hv⟩
  · rintro ⟨rfl, rfl, hv⟩
    exact apply_add_of_variableSide hv

/-- Other operators than `+` give a number on the kinds that they accept, whatever the numbers. -/
theorem combinable_iff_apply {op : ArithOp} {a b : Value} (hop : op ≠ .add) :
    a.Combinable b ↔ ∃ z, op.apply a b = .ok (.number z) := by
  constructor
  · intro hc
    obtain ⟨x, y, hx, hy⟩ := hc.exists_numberView
    exact ⟨_, apply_eq_compute (rule_of_combinable hop hc) hx hy⟩
  · rintro ⟨z, hz⟩
    refine Classical.byContradiction fun hc => ?_
    rw [apply_eq_reject (rule_of_not_combinable hop hc)] at hz
    cases hz

/-- **Arithmetic is its rules.** An operator gives exactly the result of the first rule that
matches. So every result is a number or text, a refusal names the operator and both kinds in their
order, a view fails exactly in a sum of a number and a variable, and the other operators give a
number exactly on the kinds that they accept, whatever the numbers are. -/
theorem apply_follows_rules (op : ArithOp) (a b : Value) :
    (∀ r, op.apply a b = r ↔ op.Yields a b r) ∧
    (∀ v, op.apply a b = .ok v → v.kind = .number ∨ v.kind = .string) ∧
    (∀ op' k l, op.apply a b = .error (.incompatible op' k l) →
      op' = op ∧ k = a.kind ∧ l = b.kind) ∧
    (∀ name target, op.apply a b = .error (.unresolved name target) ↔
      op = .add ∧ target = .number ∧ a.VariableSide name b) ∧
    (op ≠ .add → (a.Combinable b ↔ ∃ z, op.apply a b = .ok (.number z))) :=
  ⟨fun _ => apply_eq_iff, fun _ => apply_ok_kind, fun _ _ _ => eq_of_apply_eq_incompatible,
    fun _ _ => apply_eq_unresolved_iff, combinable_iff_apply⟩

end ArithOp

end ScriptCell
