import Mathlib.Tactic.FieldSimp
import Mathlib.Tactic.Positivity
import ScriptCell.Proofs.Binary.Rounded
import ScriptCell.Proofs.Binary.Same

/-!
# How far rounding goes

From one pattern to the next, values grow by one unit or by at most one part in `hidden`
(`Format.value_succ_sub_of_lt`, `Format.value_succ_sub_le`). Half of such a step is what rounding
can add or take away. So a number and what it is rounded to differ at most by the factor
`Format.errorFactor`, and by half a unit where steps are no smaller than that
(`Format.Nearest.within`). A whole number of units is never rounded where the steps are units, so
that the half unit is missing for it (`Format.Nearest.within_of_units`), and hence for sums
(`Binary.within_add`).
-/

namespace ScriptCell

namespace Format

variable {f : Format} {q : ℚ} {j k m : Nat}

/-! ## Steps -/

/-- From pattern `hidden` on, a step is at most one part in `hidden`. -/
theorem value_succ_sub_le (hj : f.hidden ≤ j) :
    f.value (j + 1) - f.value j ≤ f.value j / f.hidden := by
  obtain ⟨e, s, rfl, hlow, hhigh⟩ := f.exists_binade j
  have hfull : (f.hidden : ℚ) ≤ s := by
    have : f.hidden ≤ s := by
      rcases hlow with rfl | hlow
      · omega
      · exact hlow
    exact_mod_cast this
  have hhidden : (0 : ℚ) < f.hidden := Nat.cast_pos.2 f.hidden_pos
  have hstep : (0 : ℚ) < 2 ^ e / f.one := div_pos (by positivity) f.one_cast_pos
  rw [Nat.add_assoc, value_binade (by omega) hhigh, value_binade hlow hhigh.le, le_div_iff₀ hhidden]
  push_cast
  nlinarith

/-- Up to `2 * hidden`, units are counted by patterns. -/
theorem value_of_le (hm : m ≤ 2 * f.hidden) : f.value m = m / f.one := by
  have h := f.units_binade (e := 0) (.inl rfl) hm
  rw [Nat.zero_mul, Nat.zero_add, pow_zero, Nat.mul_one] at h
  rw [value, h]

/-- Before pattern `hidden`, a step is a unit. -/
theorem value_succ_sub_of_lt (hj : j < f.hidden) : f.value (j + 1) - f.value j = 1 / f.one := by
  rw [value_of_le (by omega), value_of_le (by omega)]
  push_cast
  ring

/-- Twice a value is a value, be it one beyond infinity. -/
theorem exists_value_eq_two_mul (f : Format) (k : Nat) : ∃ j, f.value j = 2 * f.value k := by
  obtain ⟨e, s, rfl, hlow, hhigh⟩ := f.exists_binade k
  obtain ⟨j, hj⟩ := f.exists_units_eq hhigh.le (e + 1)
  refine ⟨j, ?_⟩
  rw [value, value, hj, units_binade hlow hhigh.le, pow_succ]
  push_cast
  ring

/-- What is rounded does not fall below twice a value. -/
theorem Nearest.two_mul_le (hk : f.Nearest q k) (h : 2 * f.value m ≤ q) :
    2 * f.value m ≤ f.value k := by
  obtain ⟨j, hj⟩ := f.exists_value_eq_two_mul m
  rw [← hj] at h ⊢
  exact f.value_strictMono.monotone ((f.nearest_value j).mono hk h)

/-- What is rounded does not rise above twice a value. -/
theorem Nearest.le_two_mul (hk : f.Nearest q k) (h : q ≤ 2 * f.value m) :
    f.value k ≤ 2 * f.value m := by
  obtain ⟨j, hj⟩ := f.exists_value_eq_two_mul m
  rw [← hj] at h ⊢
  exact f.value_strictMono.monotone (hk.mono (f.nearest_value j) h)

/-! ## Roundings apart -/

/-- The largest factor between a number and what it is rounded to, where steps are not units. -/
def errorFactor (f : Format) : ℚ := 1 + 1 / (2 * f.hidden)

/-- Half of the least positive magnitude. -/
def halfUnit (f : Format) : ℚ := 1 / (2 * f.one)

theorem one_le_errorFactor (f : Format) : 1 ≤ f.errorFactor :=
  le_add_of_nonneg_right (by positivity)

theorem errorFactor_pos (f : Format) : 0 < f.errorFactor :=
  zero_lt_one.trans_le f.one_le_errorFactor

theorem halfUnit_nonneg (f : Format) : 0 ≤ f.halfUnit := by
  rw [halfUnit]
  positivity

theorem halfUnit_eq (f : Format) : f.halfUnit = 1 / 2 ^ (f.scale + 1) := by
  rw [halfUnit, one, Nat.pow_eq, Nat.cast_pow, Nat.cast_ofNat, ← pow_succ']

/-- Two numbers are `n` roundings apart: each of them is at most the other one times as many error
factors, up to the slack `h`. -/
structure Within (f : Format) (n : Nat) (h q a : ℚ) : Prop where
  left_le : q ≤ a * f.errorFactor ^ n + h
  right_le : a ≤ q * f.errorFactor ^ n + h

namespace Within

variable {a c d p x : ℚ} {n : Nat}

theorem refl (hq : 0 ≤ q) (n : Nat) : f.Within n 0 q q := by
  have h := le_mul_of_one_le_right hq (one_le_pow₀ f.one_le_errorFactor (n := n))
  rw [← add_zero (q * _)] at h
  exact ⟨h, h⟩

/-- Roundings one after another add up. -/
theorem trans (h : f.Within m 0 p q) (h' : f.Within n 0 q a) : f.Within (m + n) 0 p a := by
  have hm : 0 ≤ f.errorFactor ^ m := pow_nonneg f.errorFactor_pos.le m
  have hn : 0 ≤ f.errorFactor ^ n := pow_nonneg f.errorFactor_pos.le n
  constructor
  · calc
      p ≤ q * f.errorFactor ^ m + 0 := h.left_le
      _ ≤ (a * f.errorFactor ^ n + 0) * f.errorFactor ^ m + 0 := by gcongr; exact h'.left_le
      _ = a * f.errorFactor ^ (m + n) + 0 := by ring
  · calc
      a ≤ q * f.errorFactor ^ n + 0 := h'.right_le
      _ ≤ (p * f.errorFactor ^ m + 0) * f.errorFactor ^ n + 0 := by gcongr; exact h.right_le
      _ = p * f.errorFactor ^ (m + n) + 0 := by ring

/-- What is added to both numbers does not move them apart. -/
theorem add_right (h : f.Within n 0 p q) (hx : 0 ≤ x) : f.Within n 0 (p + x) (q + x) := by
  have hgrow := (refl (f := f) hx n).left_le
  constructor
  · linarith [h.left_le]
  · linarith [h.right_le]

/-- Quotients are as far apart as dividends and divisors together. -/
theorem div (h : f.Within m 0 p q) (h' : f.Within n 0 c d) (hp : 0 ≤ p) (hq : 0 ≤ q) (hc : 0 < c)
    (hd : 0 < d) :
    f.Within (m + n) 0 (p / c) (q / d) := by
  have hm : 0 ≤ f.errorFactor ^ m := pow_nonneg f.errorFactor_pos.le m
  have hpq := h.left_le
  have hqp := h.right_le
  have hcd := h'.left_le
  have hdc := h'.right_le
  rw [add_zero] at hpq hqp hcd hdc
  constructor
  · rw [add_zero, pow_add, div_mul_eq_mul_div, div_le_div_iff₀ hc hd]
    calc
      p * d ≤ q * f.errorFactor ^ m * (c * f.errorFactor ^ n) :=
        mul_le_mul hpq hdc hd.le (mul_nonneg hq hm)
      _ = q * (f.errorFactor ^ m * f.errorFactor ^ n) * c := by ring
  · rw [add_zero, pow_add, div_mul_eq_mul_div, div_le_div_iff₀ hd hc]
    calc
      q * c ≤ p * f.errorFactor ^ m * (d * f.errorFactor ^ n) :=
        mul_le_mul hqp hcd hc.le (mul_nonneg hp hm)
      _ = p * (f.errorFactor ^ m * f.errorFactor ^ n) * d := by ring

end Within

/-! ## The error of a nearest pattern -/

/-- The error of a nearest pattern is half a step, of the pattern or of the one below. -/
theorem Nearest.within_of_steps {h : ℚ} (hk : f.Nearest q k) (hq : 0 ≤ q) (hh : 0 ≤ h)
    (hstep : ∀ j, k ≤ j + 1 → f.value (j + 1) - f.value j ≤ f.value j / f.hidden + 2 * h) :
    f.Within 1 h q (f.value k) := by
  have hhidden : (0 : ℚ) < f.hidden := Nat.cast_pos.2 f.hidden_pos
  have hfactor (a : ℚ) : a * f.errorFactor ^ 1 = a + a / f.hidden / 2 := by
    rw [errorFactor]
    field_simp
  constructor
  · have habove := hk.le_midpoint le_rfl
    have := hstep k k.le_succ
    rw [midpoint] at habove
    rw [hfactor]
    linarith
  · rw [hfactor]
    cases k with
    | zero =>
      rw [f.value_zero]
      positivity
    | succ j =>
      have hbelow := hk.midpoint_le j.lt_succ_self
      have hle : f.value j / f.hidden ≤ q / f.hidden :=
        div_le_div_of_nonneg_right ((f.value_lt_midpoint j).le.trans hbelow) hhidden.le
      have := hstep j le_rfl
      rw [midpoint] at hbelow
      linarith

/-- **The error of rounding** is at most the factor and half a unit. -/
theorem Nearest.within (hk : f.Nearest q k) (hq : 0 ≤ q) : f.Within 1 f.halfUnit q (f.value k) := by
  refine hk.within_of_steps hq f.halfUnit_nonneg fun j _ => ?_
  have hunit : 2 * f.halfUnit = 1 / f.one := by
    have := f.one_cast_pos
    rw [halfUnit]
    field_simp
  rcases Nat.lt_or_ge j f.hidden with hlt | hge
  · rw [value_succ_sub_of_lt hlt, hunit]
    exact le_add_of_nonneg_left (div_nonneg (f.value_nonneg j) (Nat.cast_nonneg _))
  · exact (value_succ_sub_le hge).trans (le_add_of_nonneg_right (by rw [hunit]; positivity))

/-- **The error of rounding a whole number of units** is at most the factor: few units are a value,
and many units lie where steps are larger. -/
theorem Nearest.within_of_units (hk : f.Nearest (m / f.one) k) :
    f.Within 1 0 (m / f.one) (f.value k) := by
  have hq : (0 : ℚ) ≤ m / f.one := by positivity
  rcases le_or_gt m (2 * f.hidden) with hle | hlt
  · rw [← value_of_le hle] at hk hq ⊢
    rw [hk.unique (f.nearest_value m)]
    exact .refl hq 1
  · have hmono : f.value (2 * f.hidden) ≤ m / f.one := by
      rw [value_of_le le_rfl]
      exact div_le_div_of_nonneg_right (Nat.cast_le.2 hlt.le) f.one_cast_pos.le
    have hlarge := (f.nearest_value _).mono hk hmono
    refine hk.within_of_steps hq le_rfl fun j hj => ?_
    have := f.hidden_pos
    rw [mul_zero, add_zero]
    exact value_succ_sub_le (by omega)

end Format

/-! ## Sums and quotients of numbers that are not negative -/

namespace Binary

variable {f : Format} {x y : Binary f} {neg : Bool} {q : ℚ}

theorem toRat_of_nonneg (h : 0 ≤ x.toRat) : x.toRat = f.value x.mag := by
  rw [← magnitude, ← abs_toRat, abs_of_nonneg h]

/-- A number with the sign bit that is not negative is zero. -/
theorem toRat_of_neg (hneg : x.neg = true) (h : 0 ≤ x.toRat) : x.toRat = 0 := by
  have hm := x.magnitude_nonneg
  rw [toRat, hneg, signed, if_pos rfl] at h ⊢
  linarith

/-- The sign of a zero does not count. -/
theorem toRat_of_mag_eq_zero (h : x.mag = 0) : x.toRat = 0 := by
  rw [toRat, magnitude, h, f.value_zero, signed, neg_zero, ite_self]

theorem neg_of_toRat_pos (h : 0 < x.toRat) : x.neg = false := by
  by_contra hneg
  exact h.ne' (toRat_of_neg (Bool.eq_true_of_not_eq_false hneg) h.le)

theorem mag_pos_of_toRat_pos (h : 0 < x.toRat) : 0 < x.mag := by
  by_contra hmag
  exact h.ne' (toRat_of_mag_eq_zero (Nat.eq_zero_of_not_pos hmag))

/-- What is rounded to a finite number has its pattern as the nearest one. -/
theorem nearest_of_isFinite_round (hq : 0 ≤ q) (h : (round f neg q).isFinite = true) :
    f.Nearest q (round f neg q).mag := by
  obtain ⟨k, hk⟩ := f.exists_nearest hq
  rw [isFinite_iff_mag_lt, mag_round hk] at h
  rwa [mag_round hk, min_eq_left (by omega)]

/-- A finite sum has finite terms: an infinity on the left stays there. -/
theorem isFinite_of_add (hy : y.isFinite = true) (h : (x.add y).isFinite = true) :
    x.isFinite = true := by
  obtain ⟨hyn, hyi⟩ := isFinite_iff.1 hy
  rw [isFinite_iff]
  by_contra hx
  have hsum : x.add y = x := by
    cases hxn : x.isNaN with
    | true => rw [add, if_pos hxn]
    | false =>
      have hxi : x.isInfinite = true := by simpa [hxn] using hx
      simp only [add, hxn, hyn, hxi, hyi, Bool.false_eq_true, if_false, if_true, false_and]
  exact hx (isFinite_iff.1 (hsum ▸ h))

/-- A finite sum of numbers that are not negative is not negative and has the nearest pattern. -/
theorem nearest_add (hx : x.isFinite = true) (hy : y.isFinite = true) (hx0 : 0 ≤ x.toRat)
    (hy0 : 0 ≤ y.toRat) (hsum : (x.add y).isFinite = true) :
    0 ≤ (x.add y).toRat ∧ f.Nearest (x.toRat + y.toRat) (x.add y).mag := by
  have hq := add_nonneg hx0 hy0
  by_cases h : x.toRat + y.toRat = 0
  · have hmag : (x.add y).mag = 0 := by
      rw [add_of_toRat_add_eq_zero hx hy h]
      rfl
    rw [h, hmag, toRat_of_mag_eq_zero hmag]
    exact ⟨le_rfl, by simpa using f.nearest_value 0⟩
  · have hround := isRounded_add hx hy h
    rw [decide_eq_false (not_lt.2 hq)] at hround
    rw [(isRounded_iff hq).1 hround] at hsum ⊢
    exact ⟨magnitude_nonneg _, nearest_of_isFinite_round hq hsum⟩

/-- **The error of a finite sum** is at most the factor. -/
theorem within_add (hx : x.isFinite = true) (hy : y.isFinite = true) (hx0 : 0 ≤ x.toRat)
    (hy0 : 0 ≤ y.toRat)
    (hsum : (x.add y).isFinite = true) : f.Within 1 0 (x.toRat + y.toRat) (x.add y).toRat := by
  obtain ⟨hsum0, hnear⟩ := nearest_add hx hy hx0 hy0 hsum
  have hq := add_nonneg hx0 hy0
  obtain ⟨m, hm⟩ : ∃ m : Nat, x.toUnits + y.toUnits = m := by
    refine Int.eq_ofNat_of_zero_le ?_
    rw [toRat_add_toRat, le_div_iff₀ f.one_cast_pos, zero_mul] at hq
    exact_mod_cast hq
  rw [toRat_add_toRat, hm, Int.cast_natCast] at hnear ⊢
  rw [toRat_of_nonneg hsum0]
  exact hnear.within_of_units

/-- A positive integer that becomes a finite number becomes at least one, with an error of the
factor at most. -/
theorem within_ofInt {n : Nat} (hn : 0 < n) (hfin : (ofInt f n).isFinite = true) :
    1 ≤ (ofInt f n).toRat ∧ f.Within 1 0 n (ofInt f n).toRat := by
  have hq : (0 : ℚ) ≤ n := Nat.cast_nonneg n
  have hround : ofInt f n = round f false n := by
    rw [ofInt_eq_round, Int.natAbs_natCast, decide_eq_false (Int.not_lt.2 (Int.natCast_nonneg n))]
  rw [hround] at hfin ⊢
  have hnear := nearest_of_isFinite_round hq hfin
  have htoRat : (round f false n).toRat = f.value (round f false n).mag := rfl
  rw [htoRat]
  constructor
  · obtain ⟨j, hj⟩ := f.exists_value_eq (n := 1) (by have := f.hidden_pos; omega)
    rw [Nat.cast_one] at hj
    have hle : f.value j ≤ n := by
      rw [hj]
      exact_mod_cast hn
    exact hj ▸ f.value_strictMono.monotone ((f.nearest_value j).mono hnear hle)
  · have hunits : ((n * f.one : Nat) : ℚ) / f.one = n := by
      rw [Nat.cast_mul, mul_div_cancel_right₀ _ f.one_cast_pos.ne']
    rw [← hunits] at hnear ⊢
    exact hnear.within_of_units

/-- An integer up to a power of two that the format reaches becomes a finite number. -/
theorem isFinite_ofInt {n t : Nat} (ht : t < 2 ^ (f.expBits - 1)) (hn : n ≤ 2 ^ t) :
    (ofInt f n).isFinite = true := by
  obtain ⟨j, hj⟩ := f.exists_units_eq (m := 1) (by have := f.hidden_pos; omega) (t + f.scale)
  have hvalue : f.value j = 2 ^ t := by
    have hone : (f.one : ℚ) = 2 ^ f.scale := by
      rw [Format.one, Nat.pow_eq]
      norm_cast
    rw [Format.value, hj, hone, pow_add]
    push_cast
    field_simp
  have hle : (n : ℚ) ≤ f.value j := by
    rw [hvalue]
    exact_mod_cast hn
  have hlt : j < f.infPattern := by
    rw [← f.value_strictMono.lt_iff_lt, hvalue, f.value_infPattern]
    exact pow_lt_pow_right₀ one_lt_two ht
  have hmono := mag_round_mono f (decide ((n : Int) < 0)) false (Nat.cast_nonneg n) hle
  rw [mag_round_value hlt.le] at hmono
  rw [isFinite_iff_mag_lt, ofInt_eq_round, Int.natAbs_natCast]
  exact hmono.trans_lt hlt

/-- A quotient by a positive number is rounded once. -/
theorem div_eq_round (hx : x.isFinite = true) (hy : y.isFinite = true) (hx0 : 0 ≤ x.toRat)
    (hy0 : 0 < y.toRat) :
    x.div y = round f x.neg (x.toRat / y.toRat) := by
  obtain ⟨hxn, hxi⟩ := isFinite_iff.1 hx
  obtain ⟨hyn, hyi⟩ := isFinite_iff.1 hy
  have hmag := mag_pos_of_toRat_pos hy0
  have hyz : y.isZero = false := by
    rw [isZero, beq_eq_false_iff_ne]
    exact hmag.ne'
  have hone := f.one_cast_pos
  simp only [div, hxn, hyn, hxi, hyi, hyz, neg_of_toRat_pos hy0, Bool.bne_false, Bool.false_eq_true,
    if_false]
  rw [ofRatio_eq_round _ _ _ (f.units_pos hmag), toRat_of_nonneg hx0, toRat_of_nonneg hy0.le,
    Format.value, Format.value]
  congr 1
  push_cast
  field_simp

/-- A quotient by at least one is finite and has the nearest pattern. -/
theorem nearest_div (hx : x.isFinite = true) (hy : y.isFinite = true) (hx0 : 0 ≤ x.toRat)
    (hy1 : 1 ≤ y.toRat) :
    (x.div y).isFinite = true ∧ 0 ≤ (x.div y).toRat ∧
    f.Nearest (x.toRat / y.toRat) (x.div y).mag := by
  have hy0 := zero_lt_one.trans_le hy1
  have hdiv := div_eq_round hx hy hx0 hy0
  have hq : 0 ≤ x.toRat / y.toRat := div_nonneg hx0 hy0.le
  have hfin : (x.div y).isFinite = true := by
    have hmono := mag_round_mono f x.neg x.neg hq (div_le_self hx0 hy1)
    rw [toRat_of_nonneg hx0, ← magnitude, round_magnitude (isFinite_iff.1 hx).1, magnitude,
      ← toRat_of_nonneg hx0, ← hdiv] at hmono
    exact isFinite_iff_mag_lt.2 (hmono.trans_lt (isFinite_iff_mag_lt.1 hx))
  have hnear : f.Nearest (x.toRat / y.toRat) (x.div y).mag := by
    rw [hdiv] at hfin ⊢
    exact nearest_of_isFinite_round hq hfin
  refine ⟨hfin, ?_, hnear⟩
  cases hneg : x.neg with
  | false =>
    rw [hdiv, toRat, neg_round, hneg]
    exact magnitude_nonneg _
  | true =>
    -- only a zero divided by a positive number has the sign bit
    rw [toRat_of_neg hneg hx0, zero_div] at hnear
    have hmag : (x.div y).mag = 0 := hnear.unique (by simpa using f.nearest_value 0)
    exact (toRat_of_mag_eq_zero hmag).ge

end Binary

end ScriptCell
