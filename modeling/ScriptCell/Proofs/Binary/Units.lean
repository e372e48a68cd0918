import Mathlib.Algebra.Order.Field.Basic
import Mathlib.Data.Rat.Cast.Order
import Mathlib.Order.Monotone.Basic
import Mathlib.Tactic.Linarith
import Mathlib.Tactic.Ring
import ScriptCell.Binary.Format

/-!
# The value of a pattern

A magnitude pattern stands for the rational number `Format.value`, its units over the units in one.
Within a binade the units are the significand times a power of two (`Format.units_binade`), so from
one pattern to the next they grow (`Format.units_lt_succ`) and values are strictly monotone
(`Format.value_strictMono`). Halfway between a pattern and the next one lies `Format.midpoint`.
-/

namespace ScriptCell.Format

variable {f : Format}

/-! ## Units -/

theorem hidden_eq (f : Format) : f.hidden = 2 ^ f.fracBits := rfl

/-- A binade has an even number of patterns. -/
theorem two_dvd_hidden (f : Format) : 2 ∣ f.hidden :=
  dvd_pow_self 2 f.fracBits_pos.ne'

/-- In the binade `e` the units are the significand times `2 ^ e`, the first pattern of the next
binade included. Only the first binade has significands that are not of full length. -/
theorem units_binade {e q : Nat} (hlow : e = 0 ∨ f.hidden ≤ q) (hhigh : q ≤ 2 * f.hidden) :
    f.units (e * f.hidden + q) = q * 2 ^ e := by
  have hpos := f.hidden_pos
  have hdiv : (e * f.hidden + q) / f.hidden = e + q / f.hidden := by
    rw [Nat.add_comm, Nat.add_mul_div_right _ _ hpos, Nat.add_comm]
  simp only [units, hdiv, Nat.pow_eq]
  rcases hhigh.lt_or_eq with hlt | rfl
  · have hexp : e + q / f.hidden - 1 = e := by
      rcases Nat.lt_or_ge q f.hidden with hq | hq
      · rw [Nat.div_eq_of_lt hq]
        omega
      · have : q / f.hidden = 1 := Nat.div_eq_of_lt_le (by omega) (by omega)
        omega
    rw [hexp, Nat.add_sub_cancel_left]
  · have hexp : e + 2 * f.hidden / f.hidden - 1 = e + 1 := by
      rw [Nat.mul_div_cancel _ hpos]
      omega
    have hrest : e * f.hidden + 2 * f.hidden - (e + 1) * f.hidden = f.hidden := by
      rw [← Nat.add_mul, ← Nat.sub_mul, show e + 2 - (e + 1) = 1 by omega, Nat.one_mul]
    rw [hexp, hrest, pow_succ]
    ring

/-- Every pattern lies in a binade. -/
theorem exists_binade (f : Format) (k : Nat) :
    ∃ e q, k = e * f.hidden + q ∧ (e = 0 ∨ f.hidden ≤ q) ∧ q < 2 * f.hidden := by
  have hpos := f.hidden_pos
  have hk := Nat.div_add_mod k f.hidden
  have hmod := Nat.mod_lt k hpos
  cases hd : k / f.hidden with
  | zero =>
    rw [hd, Nat.mul_zero, Nat.zero_add] at hk
    exact ⟨0, k, by omega, .inl rfl, by omega⟩
  | succ e =>
    rw [hd, Nat.mul_succ, Nat.mul_comm] at hk
    exact ⟨e, f.hidden + k % f.hidden, by omega, .inr (by omega), by omega⟩

/-- From a pattern to the next one the units grow. -/
theorem units_lt_succ (f : Format) (k : Nat) : f.units k < f.units (k + 1) := by
  obtain ⟨e, q, rfl, hlow, hhigh⟩ := f.exists_binade k
  rw [Nat.add_assoc, units_binade hlow hhigh.le, units_binade (by omega) hhigh]
  exact Nat.mul_lt_mul_of_pos_right q.lt_succ_self (Nat.two_pow_pos e)

theorem units_strictMono (f : Format) : StrictMono f.units :=
  strictMono_nat_of_lt_succ f.units_lt_succ

@[simp] theorem units_zero (f : Format) : f.units 0 = 0 := by
  simp [units]

theorem units_pos (f : Format) {k : Nat} (hk : 0 < k) : 0 < f.units k := by
  simpa using f.units_strictMono hk

/-- A pattern is even if its significand is. -/
theorem binade_mod_two (f : Format) (e q : Nat) : (e * f.hidden + q) % 2 = q % 2 := by
  obtain ⟨h, hh⟩ := f.two_dvd_hidden
  rw [hh, show e * (2 * h) + q = q + 2 * (e * h) by ring, Nat.add_mul_mod_self_left]

/-- A number of units with a significand that fits is the number of units of a pattern. -/
theorem exists_units_eq {m : Nat} (hm : m ≤ 2 * f.hidden) (t : Nat) :
    ∃ j, f.units j = m * 2 ^ t := by
  -- a short significand is doubled until it has full length or nothing of the power is left
  induction t generalizing m with
  | zero => exact ⟨0 * f.hidden + m, units_binade (.inl rfl) hm⟩
  | succ t ih =>
    rcases Nat.lt_or_ge m f.hidden with hlt | hge
    · obtain ⟨j, hj⟩ := ih (m := 2 * m) (by omega)
      exact ⟨j, by rw [hj, pow_succ]; ring⟩
    · exact ⟨(t + 1) * f.hidden + m, units_binade (.inr hge) hm⟩

/-- Infinity stands where the next power of two would be. -/
theorem units_infPattern (f : Format) :
    f.units f.infPattern = 2 ^ (2 ^ (f.expBits - 1)) * f.one := by
  have hexp : (2 : Nat) ^ f.expBits = 2 * 2 ^ (f.expBits - 1) := by
    rw [← pow_succ', Nat.sub_add_cancel (by have := f.two_le_expBits; omega)]
  have htwo : 2 ≤ (2 : Nat) ^ (f.expBits - 1) :=
    Nat.le_self_pow (by have := f.two_le_expBits; omega) 2
  have hpattern : f.infPattern = (2 ^ f.expBits - 2) * f.hidden + f.hidden := by
    rw [infPattern, Nat.pow_eq, ← Nat.succ_mul]
    congr 1
    omega
  rw [hpattern, units_binade (.inr le_rfl) (by omega), hidden_eq, one, scale, Nat.pow_eq,
    Nat.pow_eq, ← pow_add, ← pow_add]
  congr 1
  omega

/-! ## Values -/

/-- The value of a magnitude pattern. -/
def value (f : Format) (k : Nat) : ℚ := f.units k / f.one

/-- The number halfway between the value of a pattern and the next value. -/
def midpoint (f : Format) (k : Nat) : ℚ := (f.value k + f.value (k + 1)) / 2

theorem one_cast_pos (f : Format) : (0 : ℚ) < f.one := Nat.cast_pos.2 f.one_pos

theorem value_strictMono (f : Format) : StrictMono f.value := fun _ _ h =>
  div_lt_div_of_pos_right (Nat.cast_lt.2 (f.units_strictMono h)) f.one_cast_pos

@[simp] theorem value_zero (f : Format) : f.value 0 = 0 := by
  simp [value]

theorem value_nonneg (f : Format) (k : Nat) : 0 ≤ f.value k := by
  rw [← f.value_zero]
  exact f.value_strictMono.monotone k.zero_le

/-- Infinity stands where the next power of two would be. -/
theorem value_infPattern (f : Format) : f.value f.infPattern = 2 ^ (2 ^ (f.expBits - 1)) := by
  rw [value, units_infPattern, Nat.cast_mul, mul_div_cancel_right₀ _ f.one_cast_pos.ne']
  push_cast
  rfl

/-- In a binade the value is the significand times the step of the binade. -/
theorem value_binade {e q : Nat} (hlow : e = 0 ∨ f.hidden ≤ q) (hhigh : q ≤ 2 * f.hidden) :
    f.value (e * f.hidden + q) = q * (2 ^ e / f.one) := by
  rw [value, units_binade hlow hhigh]
  push_cast
  ring

/-- Up to `2 * hidden`, whole numbers are values. -/
theorem exists_value_eq (f : Format) {n : Nat} (hn : n ≤ 2 * f.hidden) : ∃ j, f.value j = n := by
  obtain ⟨j, hj⟩ := f.exists_units_eq hn f.scale
  refine ⟨j, ?_⟩
  rw [value, hj, Nat.cast_mul]
  exact mul_div_cancel_right₀ _ f.one_cast_pos.ne'

/-- In a binade a midpoint is half a step above the significand below it. -/
theorem midpoint_binade {e q : Nat} (hlow : e = 0 ∨ f.hidden ≤ q) (hhigh : q < 2 * f.hidden) :
    f.midpoint (e * f.hidden + q) = (q + 1 / 2) * (2 ^ e / f.one) := by
  rw [midpoint, Nat.add_assoc, value_binade hlow hhigh.le, value_binade (by omega) hhigh]
  push_cast
  ring

theorem value_lt_midpoint (f : Format) (k : Nat) : f.value k < f.midpoint k := by
  have := f.value_strictMono k.lt_succ_self
  rw [midpoint]
  linarith

theorem midpoint_lt_value (f : Format) (k : Nat) : f.midpoint k < f.value (k + 1) := by
  have := f.value_strictMono k.lt_succ_self
  rw [midpoint]
  linarith

theorem midpoint_strictMono (f : Format) : StrictMono f.midpoint :=
  strictMono_nat_of_lt_succ fun k => (f.midpoint_lt_value k).trans (f.value_lt_midpoint (k + 1))

end ScriptCell.Format
