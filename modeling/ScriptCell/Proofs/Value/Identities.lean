import ScriptCell.Proofs.Decimal.Whole
import ScriptCell.Proofs.Value.Interchange

/-!
# Identities of arithmetic

The order of the operands of a sum or a product is seen in the kinds of a refusal only, and in texts
that are joined (`ArithOp.agree_apply_exchanged`). On numbers a difference is the sum with the
negated number (`Binary.isDifference_sub`), negation is the product with minus one
(`Binary.mul_eq_negate`), and it reverses the order. Negation gives a number for every value
(`Value.exists_negate`), in whichever form it is written.
-/

namespace ScriptCell

/-! ## Exchanged operands -/

/-- The failure with the operands in exchanged places. -/
def Error.exchanged : Error → Error
  | .incompatible op lhs rhs => .incompatible op rhs lhs
  | .incomparable lhs rhs => .incomparable rhs lhs
  | .unresolved name target => .unresolved name target
  | .unsupportedType typeName => .unsupportedType typeName

namespace ArithOp

variable {op : ArithOp} {a b : Value}

/-- Rules do not depend on the order of the kinds. -/
theorem rule_comm (op : ArithOp) (k l : Kind) : op.rule k l = op.rule l k := by
  cases op <;> cases k <;> cases l <;> rfl

/-- Nothing is computed on two variables. -/
theorem rule_variables (op : ArithOp) : op.rule .variableRef .variableRef = .reject := by
  cases op <;> rfl

/-- **An operator on exchanged operands** gives an equal value, or fails alike but for the order of
the kinds, if it does so on numbers and on texts. -/
theorem agree_apply_exchanged
    (hnumbers : ∀ x y : Single, (op.onNumbers x y).Same (op.onNumbers y x))
    (htexts : op.rule a.kind b.kind = .join → a.rawText ++ b.rawText = b.rawText ++ a.rawText) :
    Agree (fun v w => v.equal w = true) (op.apply a b) ((op.apply b a).mapError .exchanged) := by
  cases hr : op.rule a.kind b.kind with
  | join =>
    rw [apply_eq_join hr, apply_eq_join ((op.rule_comm _ _).trans hr), htexts hr]
    exact .ok (Value.equal_self _)
  | unknown =>
    rw [apply_eq_unknown hr, apply_eq_unknown ((op.rule_comm _ _).trans hr)]
    exact .ok (Value.equal_self _)
  | reject =>
    rw [apply_eq_reject hr, apply_eq_reject ((op.rule_comm _ _).trans hr)]
    exact .error _
  | compute =>
    have hr' := (op.rule_comm b.kind a.kind).trans hr
    rcases a.exists_numberView with ⟨x, hx⟩ | ⟨name, rfl⟩
    · rcases b.exists_numberView with ⟨y, hy⟩ | ⟨name, rfl⟩
      · rw [apply_eq_compute hr hx hy, apply_eq_compute hr' hy hx]
        exact .ok (Value.equal_number_iff.2 (hnumbers x y))
      · rw [apply_eq_error_right hr hx rfl, apply_eq_error_left hr' rfl]
        exact .error _
    · rcases b.exists_numberView with ⟨y, hy⟩ | ⟨name', rfl⟩
      · rw [apply_eq_error_left hr rfl, apply_eq_error_right hr' hy rfl]
        exact .error _
      · exact absurd (op.rule_variables.symm.trans hr) (by decide)

/-- Texts of which one is empty are joined in either order. -/
theorem rawText_comm (h : ∀ s t, a = .string s → b = .string t → s ++ t = t ++ s) :
    a.rawText ++ b.rawText = b.rawText ++ a.rawText := by
  cases a with
  | string s =>
    cases b with
    | string t => exact h s t rfl rfl
    | _ => simp [Value.rawText]
  | _ => simp [Value.rawText]

/-- **A sum does not depend on the order of its operands**, unless these are texts that join
differently. -/
theorem agree_add_exchanged_iff :
    Agree (fun v w => v.equal w = true) (add.apply a b) ((add.apply b a).mapError .exchanged) ↔
      ∀ s t, a = .string s → b = .string t → s ++ t = t ++ s := by
  constructor
  · rintro h s t rfl rfl
    cases h with
    | ok heq => exact of_decide_eq_true heq
  · intro h
    exact agree_apply_exchanged Binary.same_add_comm fun _ => rawText_comm h

/-- **A product does not depend on the order of its operands.** -/
theorem agree_mul_exchanged (a b : Value) :
    Agree (fun v w => v.equal w = true) (mul.apply a b) ((mul.apply b a).mapError .exchanged) := by
  refine agree_apply_exchanged Binary.same_mul_comm fun hr => ?_
  have hno : productRule a.kind b.kind ≠ .join := by
    unfold productRule
    split <;> exact nofun
  exact absurd hr hno

end ArithOp

/-! ## Negated numbers -/

namespace Binary

variable {f : Format} {x y : Binary f}

theorem toRat_negate (x : Binary f) : x.negate.toRat = -x.toRat := by
  have hneg : x.negate.neg = !x.neg := rfl
  have hmag : x.negate.magnitude = x.magnitude := rfl
  rw [toRat, toRat, hneg, hmag]
  cases x.neg <;> simp [signed]

/-- **A difference is rounded once**, unless it is zero. -/
theorem isRounded_sub (hx : x.isFinite = true) (hy : y.isFinite = true) (h : x.toRat ≠ y.toRat) :
    IsRounded (x.toRat - y.toRat < 0) (x.toRat - y.toRat) (x.sub y) := by
  have hadd := isRounded_add (y := y.negate) hx hy
  rw [toRat_negate, ← sub_eq_add_neg] at hadd
  exact hadd (sub_ne_zero.2 h)

/-- The difference of equal numbers is `+0`, except that `-0` less `+0` is `-0`. -/
theorem sub_of_toRat_eq (hx : x.isFinite = true) (hy : y.isFinite = true) (h : x.toRat = y.toRat) :
    x.sub y = zero f (x.neg && !y.neg) := by
  have hfin : y.negate.isFinite = true := hy
  exact add_of_toRat_add_eq_zero hx hfin (by rw [toRat_negate, h, add_neg_cancel])

/-- An infinity stays in a difference, unless the same infinity is taken from it. -/
theorem sub_of_isInfinite_left (hx : x.isInfinite = true) (hy : y.isNaN = false) :
    x.sub y = if y.isInfinite = true ∧ x.neg = y.neg then nan f false else x := by
  have hnan : y.negate.isNaN = false := hy
  have hinf : y.negate.isInfinite = y.isInfinite := rfl
  have hneg : x.neg ≠ y.negate.neg ↔ x.neg = y.neg := by
    change x.neg ≠ !y.neg ↔ _
    cases x.neg <;> cases y.neg <;> decide
  simp only [sub, add, isNaN_of_isInfinite hx, hnan, hx, hinf, hneg, Bool.false_eq_true, if_false,
    if_true]

/-- An infinity that is taken away changes its sign. -/
theorem sub_of_isInfinite_right (hx : x.isFinite = true) (hy : y.isInfinite = true) :
    x.sub y = infinity f !y.neg := by
  obtain ⟨hxn, hxi⟩ := isFinite_iff.1 hx
  have hnan : y.negate.isNaN = false := isNaN_of_isInfinite hy
  have hinf : y.negate.isInfinite = true := hy
  simp only [sub, add, hxn, hxi, hnan, hinf, Bool.false_eq_true, if_false, if_true]
  exact (infinity_neg_eq hinf).symm

/-- The number `z` is the difference of `x` and `y` as IEEE 754 has it: a NaN for a NaN and for one
infinity twice, else the infinite operand with the sign that it has in the difference; and of finite
numbers the exact difference rounded to nearest, or a zero. -/
inductive IsDifference (x y : Binary f) : Binary f → Prop
  | nan {z : Binary f} (h : x.isNaN = true ∨ y.isNaN = true) (hz : z.isNaN = true) :
      IsDifference x y z
  | infinities {z : Binary f} (hx : x.isInfinite = true) (hy : y.isInfinite = true)
      (hneg : x.neg = y.neg) (hz : z.isNaN = true) : IsDifference x y z
  | left (hx : x.isInfinite = true) (hy : y.isNaN = false)
      (hneg : y.isInfinite = true → x.neg ≠ y.neg) :
      IsDifference x y x
  | right (hx : x.isFinite = true) (hy : y.isInfinite = true) : IsDifference x y (infinity f !y.neg)
  | rounded {z : Binary f} (hx : x.isFinite = true) (hy : y.isFinite = true)
      (hne : x.toRat ≠ y.toRat)
      (hz : IsRounded (x.toRat - y.toRat < 0) (x.toRat - y.toRat) z) : IsDifference x y z
  | zero (hx : x.isFinite = true) (hy : y.isFinite = true) (heq : x.toRat = y.toRat) :
      IsDifference x y (zero f (x.neg && !y.neg))

/-- **A difference is the one of IEEE 754**, although it is computed as a sum. -/
theorem isDifference_sub (x y : Binary f) : IsDifference x y (x.sub y) := by
  by_cases hnan : x.isNaN = true ∨ y.isNaN = true
  · exact .nan hnan (isNaN_of_operand _ hnan)
  · obtain ⟨hxn, hyn⟩ := not_or.1 hnan
    rw [Bool.not_eq_true] at hxn hyn
    cases hxi : x.isInfinite with
    | true =>
      rw [sub_of_isInfinite_left hxi hyn]
      split
      · next h => exact .infinities hxi h.1 h.2 (isNaN_nan _)
      · next h => exact .left hxi hyn fun hyi hneg => h ⟨hyi, hneg⟩
    | false =>
      have hx : x.isFinite = true := isFinite_iff.2 ⟨hxn, hxi⟩
      cases hyi : y.isInfinite with
      | true =>
        rw [sub_of_isInfinite_right hx hyi]
        exact .right hx hyi
      | false =>
        have hy : y.isFinite = true := isFinite_iff.2 ⟨hyn, hyi⟩
        by_cases heq : x.toRat = y.toRat
        · rw [sub_of_toRat_eq hx hy heq]
          exact .zero hx hy heq
        · exact .rounded hx hy heq (isRounded_sub hx hy heq)

/-- **The product with minus one is the negation**, with the same bits unless it is a NaN. -/
theorem mul_eq_negate (hx : x.isNaN = false) (hy : y.isFinite = true) (hminus : y.toRat = -1) :
    x.mul y = x.negate := by
  obtain ⟨hyn, hyi⟩ := isFinite_iff.1 hy
  have hmag : y.magnitude = 1 := by rw [← abs_toRat, hminus, abs_neg, abs_one]
  have hone : f.units y.mag = f.one := by
    rw [magnitude, Format.value, div_eq_one_iff_eq f.one_cast_pos.ne'] at hmag
    exact Nat.cast_injective hmag
  have hneg : y.neg = true := by
    by_contra hpos
    rw [toRat, signed, if_neg hpos, hmag] at hminus
    norm_num at hminus
  have hyz : y.isZero = false := by
    rw [Bool.eq_false_iff]
    exact fun hz => f.one_pos.ne (units_of_isZero hz ▸ hone)
  simp only [mul, hx, hyn, hyi, hyz, hneg, Bool.false_eq_true, if_false, Bool.bne_true]
  split
  · next hinf => exact infinity_neg_eq (x := x.negate) hinf
  · have hvalue : ((f.units x.mag * f.units y.mag : Nat) : ℚ) / f.one / f.one =
        x.negate.magnitude := by
      rw [hone, Nat.cast_mul, mul_div_cancel_right₀ _ f.one_cast_pos.ne']
      rfl
    rw [ofRatio_eq_round _ _ _ f.one_pos, hvalue]
    exact round_magnitude (x := x.negate) hx

/-- Negated numbers are ordered the other way round. -/
theorem compare?_negate (x y : Binary f) : x.negate.compare? y.negate = y.compare? x := by
  have hcompare (m n : Int) : compare (-m) (-n) = compare n m := by
    rcases Int.lt_trichotomy n m with h | rfl | h
    · rw [Int.compare_eq_lt.2 h, Int.compare_eq_lt.2 (Int.neg_lt_neg h)]
    · rw [Int.compare_eq_eq.2 rfl, Int.compare_eq_eq.2 rfl]
    · rw [Int.compare_eq_gt.2 h, Int.compare_eq_gt.2 (Int.neg_lt_neg h)]
  rw [compare?, compare?, isNaN_negate, isNaN_negate, rank_negate, rank_negate, Bool.or_comm,
    hcompare]

end Binary

/-! ## Negated values -/

namespace Value

/-- **Negation is the product with minus one**, with the same bits unless it is a NaN. -/
theorem exists_mul_minusOne (x : Single) : ∃ z : Single,
    ArithOp.mul.apply (.number x) (.number (.ofInt .single (-1))) = .ok (.number z) ∧
      x.negate.Same z ∧ (x.isNaN = false → z = x.negate) := by
  have hone : (-1 : Int).natAbs ≤ 2 * Format.single.hidden := by decide
  have hfin := (Binary.ofInt_whole (by decide) hone).1
  have hrat : (Binary.ofInt .single (-1)).toRat = -1 := by
    rw [Binary.toRat_ofInt (by decide) hone]
    norm_num
  have hmul (hx : x.isNaN = false) := Binary.mul_eq_negate hx hfin hrat
  refine ⟨x.mul (.ofInt .single (-1)), rfl, ?_, hmul⟩
  cases hx : x.isNaN with
  | false => rw [hmul hx]; exact .refl _
  | true => exact .nans hx (by simp [Binary.mul, hx])

/-- **Negation gives a number for every value**: `-0` for blank text and a NaN for what is neither a
number nor blank text. -/
theorem exists_negate (v : Value) : ∃ z : Single, v.negate = .number z ∧
    (∀ x, v = .number x → z = x.negate) ∧
    (∀ s, v = .string s → AllBlank s.toList → z = .zero .single true) ∧
    (v.kind ≠ .number → (∀ s, v = .string s → ¬ AllBlank s.toList) → z.isNaN = true) := by
  cases v with
  | number x =>
    refine ⟨x.negate, rfl, ?_, nofun, fun hkind => absurd rfl hkind⟩
    rintro y ⟨⟩
    rfl
  | string s =>
    rcases Decidable.em (AllBlank s.toList) with hs | hs
    · refine ⟨.zero .single true, if_pos (trimChars_eq_nil_iff.2 hs), nofun, fun _ _ _ => rfl, ?_⟩
      exact fun _ hno => absurd hs (hno s rfl)
    · refine ⟨.nan .single false, if_neg (mt trimChars_eq_nil_iff.1 hs), nofun, ?_, fun _ _ => rfl⟩
      rintro _ ⟨⟩ hblank
      exact absurd hblank hs
  | _ => exact ⟨.nan .single false, rfl, nofun, nofun, fun _ _ => rfl⟩

/-- Every form of unary minus is the same function. -/
theorem minus_eq_negate (form : MinusForm) (v : Value) : v.minus form = v.negate := by
  cases form <;> rfl

end Value

/-! ## The identities -/

namespace ArithOp

/-- **The identities of arithmetic.** Exchanged operands of a sum, unless these are two texts, and
of a product give equal values or the same failure but for the order of the kinds. On numbers a
difference is the sum with the negated number, which is the difference of IEEE 754; negation is the
product with minus one, undoes itself and reverses the order. In each of its forms it gives a number
for every value. -/
theorem arithmetic_identities :
    (∀ a b : Value, (a.kind ≠ .string ∨ b.kind ≠ .string) →
      Agree (fun v w => v.equal w = true) (add.apply a b) ((add.apply b a).mapError .exchanged)) ∧
    (∀ a b : Value,
      Agree (fun v w => v.equal w = true) (mul.apply a b) ((mul.apply b a).mapError .exchanged)) ∧
    (∀ x y : Single,
      sub.apply (.number x) (.number y) = add.apply (.number x) (Value.number y).negate ∧
      (∃ z : Single, sub.apply (.number x) (.number y) = .ok (.number z) ∧ x.IsDifference y z) ∧
      (Value.number x).negate.compare? (Value.number y).negate =
        (Value.number y).compare? (.number x)) ∧
    (∀ x : Single,
      (∃ z : Single, mul.apply (.number x) (.number (.ofInt .single (-1))) = .ok (.number z) ∧
        (Value.number x).negate.equal (.number z) = true ∧
        (x.isNaN = false → (Value.number x).negate = .number z)) ∧
      (Value.number x).negate.negate = .number x) ∧
    ∀ (form : MinusForm) (v : Value), v.minus form = v.negate ∧ ∃ z : Single,
      v.minus form = .number z ∧
      (∀ x, v = .number x → z = x.negate) ∧
      (∀ s, v = .string s → AllBlank s.toList → z = .zero .single true) ∧
      (v.kind ≠ .number → (∀ s, v = .string s → ¬ AllBlank s.toList) → z.isNaN = true) := by
  refine ⟨fun a b hkinds => ?_, agree_mul_exchanged, fun x y =>
    ⟨rfl, ⟨x.sub y, rfl, Binary.isDifference_sub x y⟩, ?_⟩, fun x => ⟨?_, ?_⟩, fun form v => ?_⟩
  · refine agree_add_exchanged_iff.2 ?_
    rintro s t rfl rfl
    exact absurd hkinds (by simp [Value.kind])
  · exact congrArg Except.ok (Binary.compare?_negate x y)
  · obtain ⟨z, hmul, hsame, heq⟩ := Value.exists_mul_minusOne x
    exact ⟨z, hmul, Value.equal_number_iff.2 hsame, fun hx => congrArg Value.number (heq hx).symm⟩
  · exact congrArg Value.number x.negate_negate
  · rw [v.minus_eq_negate form]
    exact ⟨rfl, v.exists_negate⟩

/-- A text and a number are joined in either order, one infinity taken from another is a NaN, and
blank text and a truth value have their negations. -/
theorem arithmetic_identities_of_text_and_infinity :
    Agree (fun v w => v.equal w = true) (add.apply (.string "a") (.number (.ofInt .single 5)))
      ((add.apply (.number (.ofInt .single 5)) (.string "a")).mapError .exchanged) ∧
    (∃ z : Single, sub.apply (.number (.infinity .single true)) (.number (.infinity .single true)) =
      .ok (.number z) ∧ z.isNaN = true) ∧
    (∃ z : Single, (Value.string "\t ").minus .owned = .number z ∧ z = .zero .single true) ∧
    ∃ z : Single, (Value.bool true).minus .borrowed = .number z ∧ z.isNaN = true := by
  obtain ⟨hsum, -, hnumbers, -, hminus⟩ := arithmetic_identities
  obtain ⟨-, ⟨z, hz, hdiff⟩, -⟩ := hnumbers (.infinity .single true) (.infinity .single true)
  obtain ⟨-, zero, hzero, -, hblank, -⟩ := hminus .owned (.string "\t ")
  obtain ⟨-, nan, hnan, -, -, hother⟩ := hminus .borrowed (.bool true)
  refine ⟨hsum _ _ (.inr (by decide)), ⟨z, hz, ?_⟩, ⟨zero, hzero, hblank _ rfl (by decide)⟩,
    nan, hnan, hother (by decide) nofun⟩
  cases hdiff with
  | nan _ hz | infinities _ _ _ hz => exact hz
  | left hx hy hneg => exact absurd rfl (hneg hx)
  | right hx | rounded hx | zero hx => exact absurd hx (by decide +kernel)

end ArithOp

end ScriptCell
