import Mathlib.Data.Rat.Floor
import Mathlib.Tactic.FieldSimp
import ScriptCell.Decimal.Basic
import ScriptCell.Proofs.Binary.Narrow

/-!
# Reading a decimal rounds its value

A decimal stands for its digits times a power of ten (`Decimal.magnitude`). Reading it settles huge
and tiny decimals by their exponents alone; that changes no answer, so reading is rounding
(`Binary.ofDecimal_eq_round`) and decimals of one sign and value read as one number
(`Binary.ofDecimal_congr`).
-/

namespace ScriptCell

namespace Decimal

variable {f : Format} {d : Decimal}

/-- The magnitude of a decimal. -/
def magnitude (d : Decimal) : ℚ := d.digits * 10 ^ d.exponent

theorem magnitude_nonneg (d : Decimal) : 0 ≤ d.magnitude :=
  mul_nonneg (Nat.cast_nonneg _) (zpow_nonneg (by norm_num) _)

/-- A power of ten, positive or not, as a quotient of natural numbers. -/
theorem zpow_ten_eq (e : Int) : (10 : ℚ) ^ e = (10 ^ e.toNat : Nat) / (10 ^ (-e).toNat : Nat) := by
  rcases Int.eq_nat_or_neg e with ⟨n, rfl | rfl⟩
  · simp
  · simp

/-- A huge decimal is beyond the finite numbers. -/
theorem value_infPattern_le_of_isHuge (hd : d.digits ≠ 0) (h : d.isHuge f = true) :
    f.value f.infPattern ≤ d.magnitude := by
  have hexp : ((2 ^ (f.expBits - 1) : Nat) : Int) ≤ 3 * d.exponent := of_decide_eq_true h
  have hpos := Int.natCast_nonneg (2 ^ (f.expBits - 1))
  obtain ⟨e, he⟩ : ∃ e : Nat, d.exponent = e := ⟨d.exponent.toNat, by omega⟩
  have hexp : 2 ^ (f.expBits - 1) ≤ 3 * e := by
    rw [he] at hexp
    exact_mod_cast hexp
  have hdigits : (1 : ℚ) ≤ d.digits := Nat.one_le_cast.2 (Nat.pos_of_ne_zero hd)
  rw [Format.value_infPattern, magnitude, he, zpow_natCast]
  calc (2 : ℚ) ^ 2 ^ (f.expBits - 1) ≤ 2 ^ (3 * e) := pow_le_pow_right₀ (by norm_num) hexp
    _ = 8 ^ e := by rw [pow_mul]; norm_num
    _ ≤ 10 ^ e := pow_le_pow_left₀ (by norm_num) (by norm_num) e
    _ ≤ d.digits * 10 ^ e := le_mul_of_one_le_left (by positivity) hdigits

/-- A tiny decimal is below the first midpoint, which is half a unit. -/
theorem magnitude_lt_midpoint_of_isTiny (h : d.isTiny f = true) : d.magnitude < f.midpoint 0 := by
  simp only [isTiny, Bool.and_eq_true, decide_eq_true_eq] at h
  obtain ⟨hneg, hexp⟩ := h
  obtain ⟨e, he⟩ : ∃ e : Nat, d.exponent = -e := ⟨(-d.exponent).toNat, by omega⟩
  rw [he] at hexp
  have hdigits : (d.digits : ℚ) < 2 ^ (d.digits.log2 + 1) := by
    exact_mod_cast Nat.lt_log2_self (n := d.digits)
  have hunit : f.midpoint 0 = 1 / (2 * f.one) := by
    have h := f.midpoint_binade (e := 0) (q := 0) (.inl rfl) (by have := f.hidden_pos; omega)
    simp only [Nat.zero_mul] at h
    rw [h]
    simp
    ring
  have hone := f.one_cast_pos
  have hpow : (8 : ℚ) ^ e ≤ 10 ^ e := pow_le_pow_left₀ (by norm_num) (by norm_num) e
  have hscale : (2 : ℚ) * f.one * 2 ^ (d.digits.log2 + 1) ≤ 8 ^ e := calc
    (2 : ℚ) * f.one * 2 ^ (d.digits.log2 + 1) = 2 ^ (1 + f.scale + (d.digits.log2 + 1)) := by
      rw [Format.one, Nat.pow_eq]
      push_cast
      ring
    _ ≤ 2 ^ (3 * e) := pow_le_pow_right₀ (by norm_num) (by omega)
    _ = 8 ^ e := by rw [pow_mul]; norm_num
  rw [hunit, magnitude, he, zpow_neg, zpow_natCast, ← div_eq_mul_inv,
    div_lt_div_iff₀ (by positivity) (by positivity), one_mul]
  calc (d.digits : ℚ) * (2 * f.one) < 2 ^ (d.digits.log2 + 1) * (2 * f.one) :=
      mul_lt_mul_of_pos_right hdigits (by positivity)
    _ ≤ 10 ^ e := by linarith

end Decimal

namespace Binary

variable {f : Format}

/-- **Reading a decimal rounds its value**, also where the exponent settles it. -/
theorem ofDecimal_eq_round (f : Format) (d : Decimal) :
    ofDecimal f d = round f d.neg d.magnitude := by
  unfold ofDecimal
  have hzero : f.Nearest 0 0 := by simpa using f.nearest_value 0
  split
  · next h =>
    simp only [Bool.or_eq_true, decide_eq_true_eq] at h
    have hnearest : f.Nearest d.magnitude 0 := by
      rcases h with h | h
      · simpa [Decimal.magnitude, h] using hzero
      · exact Format.nearest_of_between (fun j hj => by omega)
          (Decimal.magnitude_lt_midpoint_of_isTiny h)
    exact ext_of_mag rfl ((mag_round hnearest).trans (Nat.zero_min _)).symm
  · next h =>
    simp only [Bool.or_eq_true, decide_eq_true_eq, not_or] at h
    split
    · next hhuge =>
      obtain ⟨k, hk⟩ := f.exists_nearest d.magnitude_nonneg
      have hle : f.infPattern ≤ k :=
        (f.nearest_value _).mono hk (Decimal.value_infPattern_le_of_isHuge h.1 hhuge)
      exact ext_of_mag rfl ((mag_round hk).trans (min_eq_right hle)).symm
    · have hden : 0 < Nat.pow 10 (-d.exponent).toNat := Nat.pow_pos (by decide)
      rw [ofRatio_eq_round _ _ _ hden, Nat.cast_mul, div_right_comm,
        mul_div_cancel_right₀ _ f.one_cast_pos.ne', Decimal.magnitude, Decimal.zpow_ten_eq,
        Nat.cast_mul, mul_div_assoc]
      rfl

/-- Decimals of one sign and value read as one number. -/
theorem ofDecimal_congr {d d' : Decimal} (hn : d.neg = d'.neg) (hm : d.magnitude = d'.magnitude) :
    ofDecimal f d = ofDecimal f d' := by
  rw [ofDecimal_eq_round, ofDecimal_eq_round, hn, hm]

@[simp] theorem neg_ofDecimal (f : Format) (d : Decimal) : (ofDecimal f d).neg = d.neg := by
  rw [ofDecimal_eq_round, neg_round]

@[simp] theorem isNaN_ofDecimal (f : Format) (d : Decimal) : (ofDecimal f d).isNaN = false := by
  rw [ofDecimal_eq_round, isNaN_round]

/-- Reading a decimal with a wide format and narrowing it gives what reading it with the narrow
format gives, but for false ties. -/
theorem convert_ofDecimal_eq_iff {g : Format} (h : f.Wider g) (d : Decimal) :
    (ofDecimal f d).convert g = ofDecimal g d ↔
      ∀ k, ¬ FalseTie g d.magnitude (ofDecimal f d) k := by
  rw [ofDecimal_eq_round, ofDecimal_eq_round]
  exact convert_round_eq_iff h d.magnitude_nonneg

/-- At a false tie the two readings are the even and the odd one of two neighbours. -/
theorem mag_ofDecimal_of_falseTie {g : Format} (h : f.Wider g) {d : Decimal} {k : Nat}
    (ht : FalseTie g d.magnitude (ofDecimal f d) k) :
    ((ofDecimal f d).convert g).mag = k + k % 2 ∧ (ofDecimal g d).mag = k + (k + 1) % 2 := by
  rw [ofDecimal_eq_round] at ht ⊢
  rw [ofDecimal_eq_round]
  exact ht.mag_eq h d.magnitude_nonneg

end Binary

end ScriptCell
