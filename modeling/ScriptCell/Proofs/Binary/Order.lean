import ScriptCell.Binary.Arith

/-!
# Patterns, ranks and numeric order

The bits of a number determine it, so patterns can be compared instead of numbers
(`Binary.toBits_injective`). Numbers that are no NaNs are ordered as their ranks are
(`Binary.compare?_eq_some_iff`). The rank forgets nothing but the sign of a zero
(`Binary.rank_eq_iff`), hence two numbers are numerically equal exactly if neither is a NaN and they
are the same number or two zeros (`Binary.numEq_iff`).
-/

namespace ScriptCell.Binary

variable {f : Format} {x y : Binary f}

/-- A number is determined by its bits. -/
theorem toBits_injective (h : x.toBits = y.toBits) : x = y := by
  rw [← ofBits_toBits x, h, ofBits_toBits]

/-- A number is determined by its sign and its magnitude pattern. -/
theorem ext_of_mag (hn : x.neg = y.neg) (hm : x.mag = y.mag) : x = y := by
  obtain ⟨xn, xm, hx⟩ := x
  obtain ⟨yn, ym, hy⟩ := y
  cases hn
  cases hm
  rfl

@[simp] theorem isNaN_nan (neg : Bool) : (nan f neg).isNaN = true :=
  decide_eq_true (Nat.lt_add_of_pos_right (Nat.two_pow_pos _))

@[simp] theorem isNaN_infinity (neg : Bool) : (infinity f neg).isNaN = false :=
  decide_eq_false (Nat.lt_irrefl _)

theorem isInfinite_iff : x.isInfinite = true ↔ x.mag = f.infPattern := by
  simp [isInfinite]

/-- There is one infinity of each sign. -/
theorem infinity_neg_eq (h : x.isInfinite = true) : infinity f x.neg = x :=
  ext_of_mag rfl (isInfinite_iff.1 h).symm

/-- An infinity is no NaN. -/
theorem isNaN_of_isInfinite (h : x.isInfinite = true) : x.isNaN = false := by
  rw [← infinity_neg_eq h, isNaN_infinity]

/-- A number is finite, infinite or a NaN. -/
theorem isFinite_iff :
    x.isFinite = true ↔ x.isNaN = false ∧ x.isInfinite = false := by
  simp only [isFinite, isNaN, isInfinite, decide_eq_true_eq, decide_eq_false_iff_not,
    beq_eq_false_iff_ne]
  omega

theorem isZero_iff : x.isZero = true ↔ x.mag = 0 := by
  simp [isZero]

/-- Only a zero has the first pattern. -/
theorem mag_pos (h : x.isZero = false) : 0 < x.mag :=
  Nat.pos_of_ne_zero fun h0 => Bool.false_ne_true (h.symm.trans (isZero_iff.2 h0))

/-- A zero is no NaN. -/
theorem isNaN_of_isZero (h : x.isZero = true) : x.isNaN = false := by
  rw [isZero_iff] at h
  simp [isNaN, h]

/-- Only a zero has bits without any magnitude. -/
theorem isZero_of_toBits_eq_zero (h : x.toBits = 0) : x.isZero = true := by
  rw [isZero_iff]
  unfold toBits at h
  omega

/-- **What a rank forgets.** Two numbers have one rank exactly if they are the same number or two
zeros: numbers of different signs have opposite ranks, and only zero is opposite to itself. -/
theorem rank_eq_iff :
    x.rank = y.rank ↔ x = y ∨ x.isZero = true ∧ y.isZero = true := by
  constructor
  · intro h
    cases hx : x.neg <;> cases hy : y.neg <;>
      simp only [rank, hx, hy, if_true, Bool.false_eq_true, if_false] at h
    case false.false | true.true => exact .inl (ext_of_mag (hx.trans hy.symm) (by omega))
    case false.true | true.false =>
      exact .inr ⟨isZero_iff.2 (by omega), isZero_iff.2 (by omega)⟩
  · rintro (rfl | ⟨hx, hy⟩)
    · rfl
    · rw [isZero_iff] at hx hy
      simp [rank, hx, hy]

/-- Numbers are not ordered exactly if one of them is a NaN. -/
theorem compare?_eq_none_iff : x.compare? y = none ↔ x.isNaN = true ∨ y.isNaN = true := by
  cases hx : x.isNaN <;> cases hy : y.isNaN <;> simp [compare?, hx, hy]

/-- Numbers that are no NaNs are ordered as their ranks are. -/
theorem compare?_eq_some_iff {o : Ordering} :
    x.compare? y = some o ↔ x.isNaN = false ∧ y.isNaN = false ∧ compare x.rank y.rank = o := by
  cases hx : x.isNaN <;> cases hy : y.isNaN <;> simp [compare?, hx, hy]

/-- Numbers in exchanged places are ordered the other way round. -/
theorem compare?_swap (x y : Binary f) : y.compare? x = (x.compare? y).map Ordering.swap := by
  rw [compare?, compare?, Bool.or_comm]
  split
  · rfl
  · rw [Option.map_some, Int.compare_swap]

/-- Numeric equality is equality of ranks, without NaNs. -/
theorem numEq_iff_rank :
    x.numEq y = true ↔ x.isNaN = false ∧ y.isNaN = false ∧ x.rank = y.rank := by
  rw [numEq, beq_iff_eq, compare?_eq_some_iff, Int.compare_eq_eq]

/-- The numeric order is the order of ranks, without NaNs. -/
theorem numLt_iff_rank :
    x.numLt y = true ↔ x.isNaN = false ∧ y.isNaN = false ∧ x.rank < y.rank := by
  rw [numLt, beq_iff_eq, compare?_eq_some_iff, Int.compare_eq_lt]

/-- Numeric equality, without NaNs, is equality up to the sign of a zero. -/
theorem numEq_iff :
    x.numEq y = true ↔ x.isNaN = false ∧ y.isNaN = false ∧
      (x = y ∨ x.isZero = true ∧ y.isZero = true) := by
  rw [← rank_eq_iff, numEq_iff_rank]

end ScriptCell.Binary
