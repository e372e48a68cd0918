import ScriptCell.Proofs.Binary.Order

/-!
# Numbers that are one value

Two numbers are the same value if they are the same number, two zeros or two NaNs. Every operation
on numbers respects this but one: sums (`Same.add`), differences, products and remainders of same
numbers are the same, and so is their order (`Same.compare?_eq`). A quotient shows the sign of a
zero divisor below a number that is neither zero nor a NaN, and nothing else (`same_div_iff`).
-/

namespace ScriptCell.Binary

variable {f : Format} {x x' y y' : Binary f}

/-- Two numbers are one value. -/
inductive Same : Binary f → Binary f → Prop
  | refl (x : Binary f) : Same x x
  | zeros {x y : Binary f} : x.isZero = true → y.isZero = true → Same x y
  | nans {x y : Binary f} : x.isNaN = true → y.isNaN = true → Same x y

/-- Two zeros with different signs. -/
def OppositeZeros (x y : Binary f) : Prop := x.isZero = true ∧ y.isZero = true ∧ x.neg ≠ y.neg

theorem Same.symm (h : Same x y) : Same y x := by
  cases h with
  | refl => exact .refl x
  | zeros hx hy => exact .zeros hy hx
  | nans hx hy => exact .nans hy hx

theorem Same.isNaN_eq (h : Same x y) : x.isNaN = y.isNaN := by
  cases h with
  | refl => rfl
  | zeros hx hy => rw [isNaN_of_isZero hx, isNaN_of_isZero hy]
  | nans hx hy => rw [hx, hy]

/-- A NaN is no zero. -/
theorem isZero_of_isNaN (h : x.isNaN = true) : x.isZero = false := by
  cases hz : x.isZero with
  | false => rfl
  | true => exact absurd (h.symm.trans (isNaN_of_isZero hz)) (by decide)

theorem Same.isZero_eq (h : Same x y) : x.isZero = y.isZero := by
  cases h with
  | refl => rfl
  | zeros hx hy => rw [hx, hy]
  | nans hx hy => rw [isZero_of_isNaN hx, isZero_of_isNaN hy]

theorem Same.trans {z : Binary f} (h : Same x y) (h' : Same y z) : Same x z := by
  cases h with
  | refl => exact h'
  | zeros hx hy => exact .zeros hx (h'.isZero_eq ▸ hy)
  | nans hx hy => exact .nans hx (h'.isNaN_eq ▸ hy)

/-- There is one zero of each sign. -/
theorem eq_of_isZero (hx : x.isZero = true) (hy : y.isZero = true) (hneg : x.neg = y.neg) : x = y :=
  ext_of_mag hneg ((isZero_iff.1 hx).trans (isZero_iff.1 hy).symm)

/-- The same number, but for zeros of opposite signs and for NaNs. -/
theorem Same.eq_of_isNaN (h : Same x y) (hx : x.isNaN = false) (hz : ¬ OppositeZeros x y) :
    x = y := by
  cases h with
  | refl => rfl
  | zeros hx hy =>
    exact eq_of_isZero hx hy (Decidable.byContradiction fun hne => hz ⟨hx, hy, hne⟩)
  | nans hnan => exact absurd (hx.symm.trans hnan) (by decide)

/-! ## Zeros -/

theorem isInfinite_of_isZero (h : x.isZero = true) : x.isInfinite = false := by
  rw [isInfinite, isZero_iff.1 h]
  exact beq_eq_false_iff_ne.2 (Nat.ne_of_lt f.infPattern_pos)

/-- An infinity is no zero. -/
theorem isZero_of_isInfinite (h : x.isInfinite = true) : x.isZero = false := by
  cases hz : x.isZero with
  | false => rfl
  | true => exact absurd (h.symm.trans (isInfinite_of_isZero hz)) (by decide)

theorem units_of_isZero (h : x.isZero = true) : f.units x.mag = 0 := by
  rw [isZero_iff.1 h, Format.units, Nat.zero_sub, Nat.zero_mul]

theorem toUnits_of_isZero (h : x.isZero = true) : x.toUnits = 0 := by
  rw [toUnits, units_of_isZero h, Int.natCast_zero, Int.neg_zero, ite_self]

@[simp] theorem isZero_zero (neg : Bool) : (zero f neg).isZero = true := rfl

/-- Nothing is rounded to zero. -/
theorem isZero_ofRatio_zero (neg : Bool) (d : Nat) : (ofRatio f neg 0 d).isZero = true := by
  rw [isZero_iff]
  simp [ofRatio, Format.roundPattern, roundDiv]

/-! ## NaNs -/

/-- What gives the first NaN of its operands, before anything else, gives a NaN. -/
theorem isNaN_of_operand (r : Binary f) (h : x.isNaN = true ∨ y.isNaN = true) :
    (if x.isNaN then x else if y.isNaN then y else r).isNaN = true := by
  split
  · assumption
  · next hx => rw [if_pos (h.resolve_left hx), h.resolve_left hx]

theorem isNaN_add (h : x.isNaN = true ∨ y.isNaN = true) : (x.add y).isNaN = true :=
  isNaN_of_operand _ h

theorem isNaN_mul (h : x.isNaN = true ∨ y.isNaN = true) : (x.mul y).isNaN = true :=
  isNaN_of_operand _ h

theorem isNaN_div (h : x.isNaN = true ∨ y.isNaN = true) : (x.div y).isNaN = true :=
  isNaN_of_operand _ h

theorem isNaN_rem (h : x.isNaN = true ∨ y.isNaN = true) : (x.rem y).isNaN = true :=
  isNaN_of_operand _ h

/-! ## Sign, sum, product and remainder -/

theorem Same.negate (h : Same x y) : Same x.negate y.negate := by
  cases h with
  | refl => exact .refl _
  | zeros hx hy => exact .zeros hx hy
  | nans hx hy => exact .nans hx hy

/-- An operation that respects its first operand and does not care about the order of its operands
respects both. -/
theorem Same.of_comm {op : Binary f → Binary f → Binary f}
    (hleft : ∀ {x x' : Binary f} (y : Binary f), Same x x' → Same (op x y) (op x' y))
    (hcomm : ∀ x y : Binary f, Same (op x y) (op y x)) (hx : Same x x') (hy : Same y y') :
    Same (op x y) (op x' y') := by
  have hswap : Same (op y x') (op y' x') := hleft x' hy
  exact (hleft y hx).trans ((hcomm x' y).trans (hswap.trans (hcomm y' x')))

/-- A sum does not care about the order of its operands, but for the pattern of a NaN. -/
theorem same_add_comm (x y : Binary f) : Same (x.add y) (y.add x) := by
  cases hx : x.isNaN <;> cases hy : y.isNaN
  case true.true => exact .nans (isNaN_add (.inl hx)) (isNaN_add (.inl hy))
  case true.false | false.true => simpa [add, hx, hy] using .refl _
  case false.false =>
    cases hxi : x.isInfinite <;> cases hyi : y.isInfinite <;>
      simp only [add, hx, hy, hxi, hyi, Bool.false_eq_true, if_false, if_true, true_and]
    case false.false =>
      rw [Int.add_comm, Bool.and_comm]
      exact .refl _
    case false.true | true.false => exact .refl _
    case true.true =>
      by_cases hneg : x.neg = y.neg
      · have hxy : x = y :=
          ext_of_mag hneg ((isInfinite_iff.1 hxi).trans (isInfinite_iff.1 hyi).symm)
        subst hxy
        exact .refl _
      · rw [if_pos hneg, if_pos (Ne.symm hneg)]
        exact .refl _

/-- A sum does not show the sign of a zero on its left, but for the sign of its own zero. -/
theorem Same.add_left (y : Binary f) (h : Same x x') : Same (x.add y) (x'.add y) := by
  cases h with
  | refl => exact .refl _
  | nans hx hx' => exact .nans (isNaN_add (.inl hx)) (isNaN_add (.inl hx'))
  | zeros hx hx' =>
    simp only [add, isNaN_of_isZero hx, isNaN_of_isZero hx', isInfinite_of_isZero hx,
      isInfinite_of_isZero hx', toUnits_of_isZero hx, toUnits_of_isZero hx', Bool.false_eq_true,
      if_false, Int.zero_add]
    by_cases hsum : y.toUnits = 0
    · simp only [if_pos hsum]
      split
      · exact .refl y
      · split
        · exact .refl y
        · exact .zeros (isZero_zero _) (isZero_zero _)
    · simp only [if_neg hsum]
      exact .refl _

theorem Same.add (hx : Same x x') (hy : Same y y') : Same (x.add y) (x'.add y') :=
  Same.of_comm Same.add_left same_add_comm hx hy

theorem Same.sub (hx : Same x x') (hy : Same y y') : Same (x.sub y) (x'.sub y') :=
  hx.add hy.negate

/-- A product does not care about the order of its operands, but for the pattern of a NaN. -/
theorem same_mul_comm (x y : Binary f) : Same (x.mul y) (y.mul x) := by
  cases hx : x.isNaN <;> cases hy : y.isNaN
  case true.true => exact .nans (isNaN_mul (.inl hx)) (isNaN_mul (.inl hy))
  case true.false | false.true => simpa [mul, hx, hy] using .refl _
  case false.false =>
    have hneg : (x.neg != y.neg) = (y.neg != x.neg) := bne_comm
    cases hxi : x.isInfinite <;> cases hyi : y.isInfinite <;>
      simp only [mul, hx, hy, hxi, hyi, hneg, Bool.false_eq_true, if_false, if_true]
    case false.false =>
      rw [Nat.mul_comm]
      exact .refl _
    case false.true | true.false => exact .refl _
    case true.true =>
      rw [isZero_of_isInfinite hxi, isZero_of_isInfinite hyi]
      exact .refl _

/-- A product does not show the sign of a zero on its left, but for the sign of its own zero. -/
theorem Same.mul_left (y : Binary f) (h : Same x x') : Same (x.mul y) (x'.mul y) := by
  cases h with
  | refl => exact .refl _
  | nans hx hx' => exact .nans (isNaN_mul (.inl hx)) (isNaN_mul (.inl hx'))
  | zeros hx hx' =>
    simp only [mul, isNaN_of_isZero hx, isNaN_of_isZero hx', isInfinite_of_isZero hx,
      isInfinite_of_isZero hx', units_of_isZero hx, units_of_isZero hx', hx, hx',
      Bool.false_eq_true, if_false, if_true, Nat.zero_mul]
    split
    · exact .refl y
    · split
      · exact .refl _
      · exact .zeros (isZero_ofRatio_zero _ _) (isZero_ofRatio_zero _ _)

theorem Same.mul (hx : Same x x') (hy : Same y y') : Same (x.mul y) (x'.mul y') :=
  Same.of_comm Same.mul_left same_mul_comm hx hy

theorem Same.rem_left (y : Binary f) (h : Same x x') : Same (x.rem y) (x'.rem y) := by
  cases h with
  | refl => exact .refl _
  | nans hx hx' => exact .nans (isNaN_rem (.inl hx)) (isNaN_rem (.inl hx'))
  | zeros hx hx' =>
    simp only [rem, isNaN_of_isZero hx, isNaN_of_isZero hx', isInfinite_of_isZero hx,
      isInfinite_of_isZero hx', units_of_isZero hx, units_of_isZero hx', Bool.false_eq_true,
      if_false, false_or, Nat.zero_mod]
    split
    · exact .refl y
    · split
      · exact .refl _
      · split
        · exact .zeros hx hx'
        · exact .zeros (isZero_ofRatio_zero _ _) (isZero_ofRatio_zero _ _)

/-- A remainder does not show the sign of its divisor. -/
theorem Same.rem_right (x : Binary f) (h : Same y y') : Same (x.rem y) (x.rem y') := by
  cases h with
  | refl => exact .refl _
  | nans hy hy' => exact .nans (isNaN_rem (.inr hy)) (isNaN_rem (.inr hy'))
  | zeros hy hy' =>
    cases hx : x.isNaN with
    | true => exact .nans (isNaN_rem (.inl hx)) (isNaN_rem (.inl hx))
    | false =>
      simp only [rem, hx, isNaN_of_isZero hy, isNaN_of_isZero hy', hy, hy', Bool.false_eq_true,
        if_false, or_true, if_true]
      exact .refl _

theorem Same.rem (hx : Same x x') (hy : Same y y') : Same (x.rem y) (x'.rem y') :=
  (hx.rem_left y).trans (hy.rem_right x')

/-! ## Quotient -/

theorem Same.div_left (y : Binary f) (h : Same x x') : Same (x.div y) (x'.div y) := by
  cases h with
  | refl => exact .refl _
  | nans hx hx' => exact .nans (isNaN_div (.inl hx)) (isNaN_div (.inl hx'))
  | zeros hx hx' =>
    simp only [div, isNaN_of_isZero hx, isNaN_of_isZero hx', isInfinite_of_isZero hx,
      isInfinite_of_isZero hx', units_of_isZero hx, units_of_isZero hx', hx, hx',
      Bool.false_eq_true, if_false, if_true, Nat.zero_mul]
    split
    · exact .refl y
    · split
      · exact .zeros (isZero_zero _) (isZero_zero _)
      · split
        · exact .refl _
        · exact .zeros (isZero_ofRatio_zero _ _) (isZero_ofRatio_zero _ _)

/-- Below a number that is neither zero nor a NaN, a zero divisor gives an infinity that shows both
signs. -/
theorem div_of_isZero (hx : x.isNaN = false) (hxz : x.isZero = false) (hy : y.isZero = true) :
    x.div y = infinity f (x.neg != y.neg) := by
  simp only [div, hx, hxz, hy, isNaN_of_isZero hy, isInfinite_of_isZero hy, Bool.false_eq_true,
    if_false, if_true, ite_self]

/-- Below a zero or a NaN, a zero divisor gives a NaN. -/
theorem isNaN_div_of_isZero (hx : x.isNaN = true ∨ x.isZero = true) (hy : y.isZero = true) :
    (x.div y).isNaN = true := by
  rcases hx with hx | hx
  · simp [div, hx]
  · simp [div, hx, hy, isNaN_of_isZero hx, isNaN_of_isZero hy, isInfinite_of_isZero hx,
      isInfinite_of_isZero hy]

/-- Infinities that are one value have one sign. -/
theorem neg_eq_of_same_infinity {s s' : Bool} (h : Same (infinity f s) (infinity f s')) :
    s = s' := by
  have hzero : (infinity f s).isZero = false := isZero_of_isInfinite (isInfinite_iff.2 rfl)
  have heq := h.eq_of_isNaN (isNaN_infinity s) fun hz => absurd (hz.1.symm.trans hzero) (by decide)
  exact congrArg Binary.neg heq

/-- **Quotients of same numbers are the same**, unless zeros of opposite signs divide a number that
is neither zero nor a NaN. -/
theorem same_div_iff (hx : Same x x') (hy : Same y y') :
    Same (x.div y) (x'.div y') ↔
      ¬ (OppositeZeros y y' ∧ x.isZero = false ∧ x.isNaN = false) := by
  constructor
  · rintro h ⟨⟨hyz, hyz', hneg⟩, hxz, hxn⟩
    obtain rfl : x = x' := hx.eq_of_isNaN hxn fun hz => absurd (hz.1.symm.trans hxz) (by decide)
    rw [div_of_isZero hxn hxz hyz, div_of_isZero hxn hxz hyz'] at h
    have hsigns := neg_eq_of_same_infinity h
    cases hxs : x.neg <;> simp_all
  · intro h
    refine (hx.div_left y).trans ?_
    cases hy with
    | refl => exact .refl _
    | nans hyn hyn' => exact .nans (isNaN_div (.inr hyn)) (isNaN_div (.inr hyn'))
    | zeros hyz hyz' =>
      by_cases hneg : y.neg = y'.neg
      · obtain rfl := eq_of_isZero hyz hyz' hneg
        exact .refl _
      · have hx' : x'.isNaN = true ∨ x'.isZero = true := by
          rw [← hx.isNaN_eq, ← hx.isZero_eq]
          cases hxn : x.isNaN with
          | true => exact .inl rfl
          | false =>
            cases hxz : x.isZero with
            | true => exact .inr rfl
            | false => exact absurd ⟨⟨hyz, hyz', hneg⟩, hxz, hxn⟩ h
        exact .nans (isNaN_div_of_isZero hx' hyz) (isNaN_div_of_isZero hx' hyz')

/-! ## Order -/

theorem Same.rank_eq (h : Same x y) (hx : x.isNaN = false) : x.rank = y.rank := by
  cases h with
  | refl => rfl
  | zeros hx hy => exact rank_eq_iff.2 (.inr ⟨hx, hy⟩)
  | nans hnan => exact absurd (hx.symm.trans hnan) (by decide)

/-- Same numbers are ordered alike. -/
theorem Same.compare?_eq (hx : Same x x') (hy : Same y y') : x.compare? y = x'.compare? y' := by
  unfold compare?
  rw [← hx.isNaN_eq, ← hy.isNaN_eq]
  split
  · rfl
  · next h =>
    rw [Bool.not_eq_true, Bool.or_eq_false_iff] at h
    rw [hx.rank_eq h.1, hy.rank_eq h.2]

end ScriptCell.Binary
