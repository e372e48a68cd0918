import ScriptCell.Proofs.Binary.Rounded
import ScriptCell.Proofs.Binary.Same
import ScriptCell.Proofs.Value.Arith

/-!
# The remainder is exact

A remainder of two magnitudes is a magnitude of the format again (`Format.exists_units_eq_mod`): it
is a whole number of steps of the finer one of both binades, and small enough for a significand
there. So nothing is lost when the remainder is rounded, however far the magnitudes are apart
(`Binary.toUnits_rem`), and the values that may stand on one side of a remainder are read as `+0`
(`ArithOp.rem_is_exact`).
-/

namespace ScriptCell

/-! ## Magnitudes -/

namespace Format

variable {f : Format}

/-- **A remainder of magnitudes is a magnitude.** -/
theorem exists_units_eq_mod (f : Format) (k : Nat) {l : Nat} (hl : 0 < l) :
    ∃ j, f.units j = f.units k % f.units l := by
  obtain ⟨e, s, rfl, hslow, hshigh⟩ := f.exists_binade k
  obtain ⟨g, t, rfl, htlow, hthigh⟩ := f.exists_binade l
  have hpos := f.units_pos hl
  rw [units_binade hslow hshigh.le]
  rw [units_binade htlow hthigh.le] at hpos ⊢
  rcases Nat.le_total e g with heg | hge
  · -- steps of the dividend: there are no more of them than in the dividend itself
    obtain ⟨i, rfl⟩ := Nat.exists_eq_add_of_le heg
    have hmod : s * 2 ^ e % (t * 2 ^ (e + i)) = s % (t * 2 ^ i) * 2 ^ e := by
      rw [pow_add, Nat.mul_left_comm, Nat.mul_comm (2 ^ e), ← Nat.mul_mod_mul_right]
    rw [hmod]
    exact exists_units_eq ((Nat.mod_le _ _).trans hshigh.le) e
  · -- steps of the divisor: there are fewer of them than in the divisor
    obtain ⟨i, rfl⟩ := Nat.exists_eq_add_of_le hge
    have hmod : s * 2 ^ (g + i) % (t * 2 ^ g) = s * 2 ^ i % t * 2 ^ g := by
      rw [pow_add, Nat.mul_left_comm, Nat.mul_comm (2 ^ g), ← Nat.mul_mod_mul_right]
    have ht : 0 < t := Nat.pos_of_mul_pos_right hpos
    rw [hmod]
    exact exists_units_eq ((Nat.mod_lt _ ht).le.trans hthigh.le) g

end Format

/-! ## Numbers -/

namespace Binary

variable {f : Format} {x y : Binary f}

theorem rem_of_isFinite (hx : x.isFinite = true) (hy : y.isFinite = true) (hz : y.isZero = false) :
    x.rem y = ofRatio f x.neg (f.units x.mag % f.units y.mag) 1 := by
  obtain ⟨hxn, hxi⟩ := isFinite_iff.1 hx
  obtain ⟨hyn, hyi⟩ := isFinite_iff.1 hy
  simp only [rem, hxn, hyn, hxi, hyi, hz, Bool.false_eq_true, if_false, or_self]

/-- A remainder is not rounded: its units are the remainder of the units. -/
theorem units_mag_rem (hx : x.isFinite = true) (hy : y.isFinite = true) (hz : y.isZero = false) :
    f.units (x.rem y).mag = f.units x.mag % f.units y.mag := by
  obtain ⟨j, hj⟩ := f.exists_units_eq_mod x.mag (mag_pos hz)
  have hpos := f.units_pos (mag_pos hz)
  have hjy : j < y.mag := f.units_strictMono.lt_iff_lt.1 (hj.trans_lt (Nat.mod_lt _ hpos))
  have hjinf : j ≤ f.infPattern := (hjy.trans (isFinite_iff_mag_lt.1 hy)).le
  rw [rem_of_isFinite hx hy hz, ← hj, ofRatio_eq_round _ _ _ one_pos, Nat.cast_one, div_one]
  exact congrArg f.units (mag_round_value hjinf)

/-- A remainder is smaller than the divisor. -/
theorem mag_rem_lt (hx : x.isFinite = true) (hy : y.isFinite = true) (hz : y.isZero = false) :
    (x.rem y).mag < y.mag := by
  have hpos := f.units_pos (mag_pos hz)
  exact f.units_strictMono.lt_iff_lt.1 ((units_mag_rem hx hy hz).trans_lt (Nat.mod_lt _ hpos))

/-- A remainder has the sign of the dividend, also where it is zero. -/
theorem neg_rem (hx : x.isFinite = true) (hy : y.isFinite = true) (hz : y.isZero = false) :
    (x.rem y).neg = x.neg := by
  rw [rem_of_isFinite hx hy hz]
  rfl

/-- **The remainder is the truncated one**, in units and with its sign. -/
theorem toUnits_rem (hx : x.isFinite = true) (hy : y.isFinite = true) (hz : y.isZero = false) :
    (x.rem y).toUnits = x.toUnits.tmod y.toUnits := by
  have hmod : ((f.units x.mag : Int)).tmod (f.units y.mag) =
      (f.units x.mag % f.units y.mag : Nat) := rfl
  unfold toUnits
  rw [neg_rem hx hy hz, units_mag_rem hx hy hz, ← hmod]
  cases x.neg <;> cases y.neg <;> simp

/-- **The remainder is exact**: what it leaves of the dividend is a whole multiple of the
divisor. -/
theorem exists_toRat_sub_rem (hx : x.isFinite = true) (hy : y.isFinite = true)
    (hz : y.isZero = false) :
    ∃ n : Int, x.toRat - (x.rem y).toRat = n * y.toRat := by
  refine ⟨x.toUnits.tdiv y.toUnits, ?_⟩
  have hdiv : x.toUnits - x.toUnits.tmod y.toUnits = x.toUnits.tdiv y.toUnits * y.toUnits := by
    rw [Int.tmod_def, Int.mul_comm]
    omega
  rw [toRat_eq_toUnits, toRat_eq_toUnits, toRat_eq_toUnits, toUnits_rem hx hy hz, ← sub_div,
    ← mul_div_assoc]
  exact_mod_cast congrArg (fun m : Int => (m : ℚ) / f.one) hdiv

/-- An infinite divisor leaves a finite dividend as it is. -/
theorem rem_of_isInfinite (hx : x.isFinite = true) (hy : y.isInfinite = true) : x.rem y = x := by
  obtain ⟨hxn, hxi⟩ := isFinite_iff.1 hx
  simp [rem, hxn, hxi, isNaN_of_isInfinite hy, hy, isZero_of_isInfinite hy]

/-- **A remainder is a NaN** exactly for these operands. -/
theorem isNaN_rem_iff : (x.rem y).isNaN = true ↔
    x.isNaN = true ∨ x.isInfinite = true ∨ y.isNaN = true ∨ y.isZero = true := by
  unfold rem
  split
  · next hx => simp [hx]
  · next hx =>
    split
    · next hy => simp [hy]
    · next hy =>
      split
      · next h => simpa [hx, hy] using h
      · next h =>
        rw [not_or] at h
        split <;> simp [hx, hy, h]

/-- The remainder of `+0` is `+0`. -/
theorem zero_rem (hz : y.isZero = false) (hn : y.isNaN = false) :
    (zero f false).rem y = zero f false := by
  have hzero : (zero f false).isZero = true := isZero_zero false
  cases hy : y.isInfinite with
  | true => simp [rem, isNaN_of_isZero hzero, isInfinite_of_isZero hzero, hn, hy, hz]
  | false =>
    simp only [rem, isNaN_of_isZero hzero, isInfinite_of_isZero hzero, hn, hy, hz,
      units_of_isZero hzero, Nat.zero_mod, Bool.false_eq_true, if_false, or_self]
    exact eq_of_isZero (isZero_ofRatio_zero _ _) hzero rfl

end Binary

/-! ## Values -/

namespace ArithOp

/-- **The remainder of values is exact.** Of two numbers it is a number: a NaN exactly if the
dividend is infinite or a NaN or the divisor is zero or a NaN; for finite operands smaller than the
divisor, of the sign of the dividend, and without any rounding a whole multiple of the divisor away
from it; and below an infinite divisor the dividend itself. Null and a value that is not known are
read as `+0` on either side of a number. So the remainder by one of them is a NaN, and the remainder
of one of them is `+0` if the divisor is neither zero nor a NaN. -/
theorem rem_is_exact :
    (∀ a b : Single, ∃ r : Single, rem.apply (.number a) (.number b) = .ok (.number r) ∧
      (r.isNaN = true ↔ a.isNaN = true ∨ a.isInfinite = true ∨ b.isNaN = true ∨ b.isZero = true) ∧
      (a.isFinite = true → b.isFinite = true → b.isZero = false →
        r.isFinite = true ∧ r.neg = a.neg ∧ |r.toRat| < |b.toRat| ∧
          ∃ n : Int, a.toRat - r.toRat = n * b.toRat) ∧
      (a.isFinite = true → b.isInfinite = true → r = a)) ∧
    ∀ v : Value, v = .null ∨ v = .undefined → ∀ x : Single,
      rem.apply (.number x) v = rem.apply (.number x) (.number (.zero .single false)) ∧
      rem.apply v (.number x) = rem.apply (.number (.zero .single false)) (.number x) ∧
      (∃ r : Single, rem.apply (.number x) v = .ok (.number r) ∧ r.isNaN = true) ∧
      (x.isZero = false → x.isNaN = false →
        rem.apply v (.number x) = .ok (.number (.zero .single false))) := by
  have hnumbers (a b : Single) : rem.apply (.number a) (.number b) = .ok (.number (a.rem b)) := rfl
  constructor
  · intro a b
    refine ⟨a.rem b, hnumbers a b, Binary.isNaN_rem_iff, fun ha hb hz => ?_,
      Binary.rem_of_isInfinite⟩
    have hlt := Binary.mag_rem_lt ha hb hz
    refine ⟨Binary.isFinite_iff_mag_lt.2 (hlt.trans (Binary.isFinite_iff_mag_lt.1 hb)),
      Binary.neg_rem ha hb hz, ?_, Binary.exists_toRat_sub_rem ha hb hz⟩
    rw [Binary.abs_toRat, Binary.abs_toRat]
    exact Format.single.value_strictMono hlt
  · intro v hv x
    have hleft : rem.apply (.number x) v =
        rem.apply (.number x) (.number (.zero .single false)) := by
      rcases hv with rfl | rfl <;> rfl
    have hright : rem.apply v (.number x) =
        rem.apply (.number (.zero .single false)) (.number x) := by
      rcases hv with rfl | rfl <;> rfl
    refine ⟨hleft, hright, ⟨_, hleft.trans (hnumbers _ _), ?_⟩, fun hz hn => ?_⟩
    · exact Binary.isNaN_rem_iff.2 (.inr (.inr (.inr rfl)))
    · rw [hright, hnumbers, Binary.zero_rem hz hn]

/-- The largest number by three times the least one, and the sign of a remainder that is zero. -/
theorem rem_of_extremes :
    (∃ r : Single,
      rem.apply (.number (.ofBits .single 0x7f7fffff)) (.number (.ofBits .single 3)) =
        .ok (.number r) ∧
      |r.toRat| < |(Binary.ofBits .single 3).toRat| ∧
      ∃ n : Int, (Binary.ofBits .single 0x7f7fffff).toRat - r.toRat =
        n * (Binary.ofBits .single 3).toRat) ∧
    (∃ r : Single,
      rem.apply (.number (.ofBits .single 0xc0c00000)) (.number (.ofBits .single 0x40000000)) =
        .ok (.number r) ∧ r.neg = true) ∧
    rem.apply .null (.number (.ofBits .single 1)) = .ok (.number (.zero .single false)) := by
  obtain ⟨hnumbers, hzero⟩ := rem_is_exact
  obtain ⟨r, hr, -, hexact, -⟩ := hnumbers (.ofBits .single 0x7f7fffff) (.ofBits .single 3)
  obtain ⟨z, hz, -, hsign, -⟩ := hnumbers (.ofBits .single 0xc0c00000) (.ofBits .single 0x40000000)
  obtain ⟨-, -, hlt, hmul⟩ := hexact (by decide +kernel) (by decide +kernel) (by decide +kernel)
  obtain ⟨-, hneg, -⟩ := hsign (by decide +kernel) (by decide +kernel) (by decide +kernel)
  obtain ⟨-, -, -, hnull⟩ := hzero .null (.inl rfl) (.ofBits .single 1)
  exact ⟨⟨r, hr, hlt, hmul⟩, ⟨z, hz, hneg⟩, hnull (by decide +kernel) (by decide +kernel)⟩

end ArithOp

end ScriptCell
