import Mathlib.Algebra.Order.Group.Unbundled.Abs
import ScriptCell.Binary.Convert
import ScriptCell.Proofs.Binary.Nearest

/-!
# Correctly rounded numbers

`Binary.IsRounded` says by distances what it is for a number to be a rational number rounded to
nearest: no finite number is nearer, of two equally near ones it is the even one, and from
`Format.overflow` on it is infinite. There is exactly one such number of each sign, and
`Binary.round` finds it (`Binary.isRounded_iff`); so do the conversion of integers
(`Binary.isRounded_ofInt`) and sums (`Binary.isRounded_add`). Rounding respects the order
(`Binary.rank_round_mono`).
-/

namespace ScriptCell

variable {neg neg' : Bool} {a b u v : ℚ}

/-! ## Signed magnitudes and distances -/

/-- The rational number of the given sign and magnitude. -/
def signed (neg : Bool) (a : ℚ) : ℚ := if neg then -a else a

theorem abs_signed (neg : Bool) (ha : 0 ≤ a) : |signed neg a| = a := by
  cases neg <;> simp [signed, abs_of_nonneg ha]

/-- The distance of numbers of one sign is that of their magnitudes. -/
theorem abs_signed_sub (neg : Bool) (a b : ℚ) : |signed neg a - signed neg b| = |a - b| := by
  cases neg with
  | false => rfl
  | true => rw [signed, signed, if_pos rfl, if_pos rfl, neg_sub_neg, abs_sub_comm]

/-- The distance of numbers of different signs is the sum of their magnitudes. -/
theorem abs_signed_sub_of_ne (hneg : neg ≠ neg') (ha : 0 ≤ a) (hb : 0 ≤ b) :
    |signed neg a - signed neg' b| = a + b := by
  have hab : 0 ≤ a + b := add_nonneg ha hb
  cases neg <;> cases neg'
  case false.false | true.true => exact absurd rfl hneg
  case false.true => simpa [signed] using hab
  case true.false =>
    rw [signed, signed, if_pos rfl, if_neg Bool.false_ne_true, abs_of_nonpos (by linarith)]
    ring

/-- Up to the middle of two numbers the smaller one is no farther. -/
theorem dist_le_dist_iff (h : u < v) : |a - u| ≤ |a - v| ↔ a ≤ (u + v) / 2 := by
  have hsq : (a - v) ^ 2 - (a - u) ^ 2 = (v - u) * (u + v - 2 * a) := by ring
  rw [← sq_le_sq, ← sub_nonneg, hsq, mul_nonneg_iff_of_pos_left (sub_pos.2 h)]
  constructor <;> intro <;> linarith

/-- From the middle of two numbers on the larger one is no farther. -/
theorem dist_le_dist_iff' (h : u < v) : |a - v| ≤ |a - u| ↔ (u + v) / 2 ≤ a := by
  have hneg := dist_le_dist_iff (a := -a) (neg_lt_neg h)
  rw [neg_sub_neg, neg_sub_neg, abs_sub_comm v, abs_sub_comm u] at hneg
  rw [hneg]
  constructor <;> intro <;> linarith

namespace Format

variable {f : Format} {k : Nat}

/-! ## The nearest pattern by distances -/

/-- The least magnitude that is rounded to infinity: halfway from the largest finite magnitude to
the power of two that would follow it. -/
def overflow (f : Format) : ℚ := (f.value (f.infPattern - 1) + 2 ^ 2 ^ (f.expBits - 1)) / 2

/-- Infinity has an even pattern. -/
theorem infPattern_mod_two (f : Format) : f.infPattern % 2 = 0 := by
  have h := f.binade_mod_two (Nat.pow 2 f.expBits - 1) 0
  rwa [Nat.add_zero, Nat.zero_mod] at h

theorem overflow_eq_midpoint (f : Format) : f.overflow = f.midpoint (f.infPattern - 1) := by
  rw [overflow, midpoint, Nat.sub_add_cancel f.infPattern_pos, value_infPattern]

/-- With 32 bits, half a step is missing to `2 ^ 128`. -/
theorem overflow_single : single.overflow = 2 ^ 128 - 2 ^ 103 := by
  have hpattern : single.infPattern - 1 = 253 * single.hidden + (2 ^ 24 - 1) := by decide
  have hone : single.one = 2 ^ 149 := rfl
  rw [overflow_eq_midpoint, hpattern, midpoint_binade (.inr (by decide)) (by decide), hone]
  norm_num

/-- Below the overflow threshold the nearest pattern is finite, and only there. -/
theorem Nearest.lt_infPattern_iff (h : f.Nearest a k) : k < f.infPattern ↔ a < f.overflow := by
  have hpos := f.infPattern_pos
  have heven := f.infPattern_mod_two
  rw [overflow_eq_midpoint]
  constructor
  · intro hk
    rcases h.above with hlt | ⟨rfl, hpar⟩
    · exact hlt.trans_le (f.midpoint_strictMono.monotone (by omega))
    · exact f.midpoint_strictMono (by omega)
  · intro ha
    by_contra hk
    exact absurd (h.midpoint_le (by omega)) (not_le.2 ha)

/-- No pattern is nearer than the nearest one, and one that is as near shows that it is even. -/
theorem Nearest.dist_le (h : f.Nearest a k) (j : Nat) :
    |a - f.value k| ≤ |a - f.value j| ∧
      (|a - f.value j| ≤ |a - f.value k| → j = k ∨ k % 2 = 0) := by
  rcases Nat.lt_trichotomy j k with hjk | rfl | hjk
  · obtain ⟨i, rfl⟩ : ∃ i, k = i + 1 := ⟨k - 1, by omega⟩
    have hmid : (f.value j + f.value (i + 1)) / 2 ≤ f.midpoint i := by
      have := f.value_strictMono.monotone (Nat.le_of_lt_succ hjk)
      rw [midpoint]
      linarith
    rw [dist_le_dist_iff' (f.value_strictMono hjk), dist_le_dist_iff (f.value_strictMono hjk)]
    refine ⟨hmid.trans (h.midpoint_le i.lt_succ_self), fun hle => .inr ?_⟩
    exact ((h.below i rfl).resolve_left (not_lt.2 (hle.trans hmid))).2
  · exact ⟨le_rfl, fun _ => .inl rfl⟩
  · have hmid : f.midpoint k ≤ (f.value k + f.value j) / 2 := by
      have := f.value_strictMono.monotone (Nat.succ_le_of_lt hjk)
      rw [midpoint]
      linarith
    rw [dist_le_dist_iff (f.value_strictMono hjk), dist_le_dist_iff' (f.value_strictMono hjk)]
    refine ⟨(h.le_midpoint le_rfl).trans hmid, fun hle => .inr ?_⟩
    exact (h.above.resolve_left (not_lt.2 (hmid.trans hle))).2

/-- A finite pattern is nearest to what is below the overflow threshold if no finite pattern is
nearer, and none but itself is as near unless it is even. -/
theorem nearest_of_dist_le (hk : k < f.infPattern) (ha : a < f.overflow)
    (hdist : ∀ j < f.infPattern, |a - f.value k| ≤ |a - f.value j| ∧
      (|a - f.value j| ≤ |a - f.value k| → j = k ∨ k % 2 = 0)) : f.Nearest a k := by
  constructor
  · rintro j rfl
    obtain ⟨hle, heven⟩ := hdist j (by omega)
    have hstep := f.value_strictMono j.lt_succ_self
    rw [dist_le_dist_iff' hstep] at hle
    rw [dist_le_dist_iff hstep] at heven
    rcases (show f.midpoint j ≤ a from hle).lt_or_eq with hlt | heq
    · exact .inl hlt
    · exact .inr ⟨heq, (heven heq.ge).resolve_left (by omega)⟩
  · rcases Nat.lt_or_ge (k + 1) f.infPattern with hnext | hlast
    · obtain ⟨hle, heven⟩ := hdist (k + 1) hnext
      have hstep := f.value_strictMono k.lt_succ_self
      rw [dist_le_dist_iff hstep] at hle
      rw [dist_le_dist_iff' hstep] at heven
      rcases (show a ≤ f.midpoint k from hle).lt_or_eq with hlt | heq
      · exact .inl hlt
      · exact .inr ⟨heq, (heven heq.ge).resolve_left (by omega)⟩
    · rw [overflow_eq_midpoint, show f.infPattern - 1 = k by omega] at ha
      exact .inl ha

end Format

/-! ## Rounding of rational numbers -/

namespace Binary

variable {f : Format} {x y : Binary f} {q q' : ℚ}

/-- The rational number that a finite number is. -/
def toRat (x : Binary f) : ℚ := signed x.neg x.magnitude

/-- The number `x` of the sign `neg` is the rational number `q` rounded to nearest. Below the
overflow threshold it is finite, no finite number is nearer to `q`, and one that is as near is the
same number or shows that `x` is even. From the threshold on it is infinite. -/
inductive IsRounded (neg : Bool) (q : ℚ) : Binary f → Prop
  | finite {x : Binary f} (hx : x.isFinite = true) (hneg : x.neg = neg) (hq : |q| < f.overflow)
      (hnear : ∀ y : Binary f, y.isFinite = true → |q - x.toRat| ≤ |q - y.toRat|)
      (heven : ∀ y : Binary f, y.isFinite = true → |q - y.toRat| = |q - x.toRat| →
        y.toRat = x.toRat ∨ x.mag % 2 = 0) : IsRounded neg q x
  | overflow (hq : f.overflow ≤ |q|) : IsRounded neg q (infinity f neg)

theorem isFinite_iff_mag_lt : x.isFinite = true ↔ x.mag < f.infPattern := decide_eq_true_iff

theorem magnitude_nonneg (x : Binary f) : 0 ≤ x.magnitude := f.value_nonneg x.mag

@[simp] theorem abs_toRat (x : Binary f) : |x.toRat| = x.magnitude :=
  abs_signed _ x.magnitude_nonneg

/-- What is rounded is infinite from the overflow threshold on. -/
theorem IsRounded.isInfinite_iff (h : IsRounded neg q x) :
    x.isInfinite = true ↔ f.overflow ≤ |q| := by
  cases h with
  | finite hx _ hq =>
    refine iff_of_false ?_ (not_le.2 hq)
    rw [(isFinite_iff.1 hx).2]
    exact Bool.false_ne_true
  | overflow hq => exact iff_of_true (isInfinite_iff.2 rfl) hq

/-- The distance to a number of the sign of a rational number is that to its magnitude. -/
theorem abs_sub_toRat (hneg : x.neg = neg) (a : ℚ) :
    |signed neg a - x.toRat| = |a - x.magnitude| := by
  rw [toRat, hneg, abs_signed_sub]

/-- Numbers that are one rational number have one pattern. -/
theorem mag_eq_of_toRat_eq (h : x.toRat = y.toRat) : x.mag = y.mag :=
  f.value_strictMono.injective (by rw [← magnitude, ← magnitude, ← abs_toRat, h, abs_toRat])

/-- The finite number of a sign and a pattern. -/
theorem exists_of_mag (neg : Bool) {k : Nat} (hk : k < f.infPattern) :
    ∃ y : Binary f, y.isFinite = true ∧ y.neg = neg ∧ y.mag = k :=
  ⟨⟨neg, k, hk.trans f.infPattern_lt_patterns⟩, isFinite_iff_mag_lt.2 hk, rfl, rfl⟩

/-- The pattern of a number that is rounded by distances is nearest. -/
theorem nearest_of_dist_le (ha : 0 ≤ a) (hx : x.isFinite = true) (hneg : x.neg = neg)
    (hq : |signed neg a| < f.overflow)
    (hnear : ∀ y : Binary f, y.isFinite = true →
      |signed neg a - x.toRat| ≤ |signed neg a - y.toRat|)
    (heven : ∀ y : Binary f, y.isFinite = true →
      |signed neg a - y.toRat| = |signed neg a - x.toRat| →
      y.toRat = x.toRat ∨ x.mag % 2 = 0) : f.Nearest a x.mag := by
  rw [abs_signed neg ha] at hq
  refine Format.nearest_of_dist_le (isFinite_iff_mag_lt.1 hx) hq fun j hj => ?_
  obtain ⟨y, hy, hyn, rfl⟩ := exists_of_mag neg hj
  have hle := hnear y hy
  have hpar := heven y hy
  rw [abs_sub_toRat hneg, abs_sub_toRat hyn] at hle hpar
  exact ⟨hle, fun hge => (hpar (le_antisymm hge hle)).imp_left mag_eq_of_toRat_eq⟩

/-- The distance to any number is at least that to a number of the same sign as the rational number,
to which it is equal only if that is the number itself: from the other side zero is nearer. -/
theorem exists_dist_le (ha : 0 ≤ a) (neg : Bool) (y : Binary f) :
    ∃ j, |a - f.value j| ≤ |signed neg a - y.toRat| ∧
      (|signed neg a - y.toRat| ≤ |a - f.value j| → y.toRat = signed neg (f.value j)) := by
  by_cases hy : y.neg = neg
  · exact ⟨y.mag, (abs_sub_toRat hy a).ge, fun _ => by rw [toRat, hy, magnitude]⟩
  · have hm := y.magnitude_nonneg
    refine ⟨0, ?_⟩
    rw [toRat, abs_signed_sub_of_ne (Ne.symm hy) ha hm, f.value_zero, sub_zero, abs_of_nonneg ha]
    refine ⟨by linarith, fun hle => ?_⟩
    rw [show y.magnitude = 0 by linarith]
    simp [signed]

/-- A number with the nearest pattern is rounded by distances. -/
theorem isRounded_of_nearest (ha : 0 ≤ a) (hneg : x.neg = neg) (hx : x.isFinite = true)
    (h : f.Nearest a x.mag) : IsRounded neg (signed neg a) x := by
  have hxq := abs_sub_toRat hneg a
  refine .finite hx hneg ?_ (fun y _ => ?_) (fun y _ heq => ?_)
  · rw [abs_signed neg ha]
    exact h.lt_infPattern_iff.1 (isFinite_iff_mag_lt.1 hx)
  · obtain ⟨j, hj, -⟩ := exists_dist_le ha neg y
    rw [hxq]
    exact (h.dist_le j).1.trans hj
  · obtain ⟨j, hj, hself⟩ := exists_dist_le ha neg y
    rw [heq, hxq] at hj hself
    refine ((h.dist_le j).2 hj).imp_left ?_
    rintro rfl
    rw [hself le_rfl, toRat, hneg, magnitude]

/-- **What is rounded by distances is what `round` gives**, for each sign that the rational number
can have. -/
theorem isRounded_iff (ha : 0 ≤ a) : IsRounded neg (signed neg a) x ↔ x = round f neg a := by
  obtain ⟨k, hk⟩ := f.exists_nearest ha
  have hmag : (round f neg a).mag = Min.min k f.infPattern := mag_round hk
  have habs := abs_signed neg ha
  constructor
  · intro h
    cases h with
    | finite hx hneg hq hnear heven =>
      have hnearest := nearest_of_dist_le ha hx hneg hq hnear heven
      refine ext_of_mag hneg ((mag_round hnearest).trans (min_eq_left ?_)).symm
      exact (isFinite_iff_mag_lt.1 hx).le
    | overflow hq =>
      have hle : f.infPattern ≤ k :=
        not_lt.1 fun hlt => absurd (hk.lt_infPattern_iff.1 hlt) (not_lt.2 (habs ▸ hq))
      exact ext_of_mag rfl (hmag.trans (min_eq_right hle)).symm
  · rintro rfl
    rcases Nat.lt_or_ge k f.infPattern with hfin | hinf
    · rw [min_eq_left hfin.le] at hmag
      refine isRounded_of_nearest ha rfl (isFinite_iff_mag_lt.2 ?_) ?_ <;> rwa [hmag]
    · have hround : round f neg a = infinity f neg :=
        ext_of_mag rfl (hmag.trans (min_eq_right hinf))
      rw [hround]
      refine .overflow (habs.symm ▸ not_lt.1 fun hlt => ?_)
      exact absurd (hk.lt_infPattern_iff.2 hlt) (not_lt.2 hinf)

theorem isRounded_round (ha : 0 ≤ a) (neg : Bool) : IsRounded neg (signed neg a) (round f neg a) :=
  (isRounded_iff ha).2 rfl

theorem mag_round_zero (f : Format) (neg : Bool) : (round f neg 0).mag = 0 := by
  have h : (round f neg (f.value 0)).mag = 0 := mag_round_value f.infPattern.zero_le
  rwa [f.value_zero] at h

/-- **Rounding respects the order**, whatever the signs of zeros. -/
theorem rank_round_mono (f : Format) (ha : 0 ≤ a) (hb : 0 ≤ b) (h : signed neg a ≤ signed neg' b) :
    (round f neg a).rank ≤ (round f neg' b).rank := by
  cases neg <;> cases neg' <;>
    simp only [signed, rank, neg_round, if_true, Bool.false_eq_true, if_false] at h ⊢
  case false.false =>
    exact Int.ofNat_le.2 (mag_round_mono f _ _ ha h)
  case true.true =>
    exact Int.neg_le_neg (Int.ofNat_le.2 (mag_round_mono f _ _ hb (neg_le_neg_iff.1 h)))
  case true.false =>
    omega
  case false.true =>
    -- both numbers are zero
    obtain rfl : a = 0 := by linarith
    obtain rfl : b = 0 := by linarith
    rw [mag_round_zero, mag_round_zero]
    decide

/-- The order of ranks is the order of the rational numbers. -/
theorem rank_le_rank_iff : x.rank ≤ y.rank ↔ x.toRat ≤ y.toRat := by
  have hm : x.magnitude ≤ y.magnitude ↔ x.mag ≤ y.mag := f.value_strictMono.le_iff_le
  have hm' : y.magnitude ≤ x.magnitude ↔ y.mag ≤ x.mag := f.value_strictMono.le_iff_le
  have hzero (z : Binary f) : z.magnitude = 0 ↔ z.mag = 0 := by
    rw [magnitude, ← f.value_zero, f.value_strictMono.injective.eq_iff]
  have hx := x.magnitude_nonneg
  have hy := y.magnitude_nonneg
  cases hxn : x.neg <;> cases hyn : y.neg <;>
    simp only [rank, toRat, signed, hxn, hyn, if_true, Bool.false_eq_true, if_false]
  case false.false => rw [hm, Int.ofNat_le]
  case true.true => rw [neg_le_neg_iff, neg_le_neg_iff, hm', Int.ofNat_le]
  case true.false => exact iff_of_true (by omega) (by linarith)
  case false.true =>
    -- neither number is on the other side of zero, so both are zero
    have hmag : (x.mag : Int) ≤ -y.mag ↔ x.mag = 0 ∧ y.mag = 0 := by omega
    rw [hmag, ← hzero, ← hzero]
    constructor
    · rintro ⟨hx0, hy0⟩
      rw [hx0, hy0, neg_zero]
    · intro h
      exact ⟨by linarith, by linarith⟩

/-! ## Exact results that are rounded -/

theorem toRat_eq_toUnits (x : Binary f) : x.toRat = x.toUnits / f.one := by
  unfold toRat toUnits signed magnitude Format.value
  split <;> push_cast <;> ring

/-- A quotient of an integer is its sign and its magnitude. -/
theorem signed_natAbs_div (s : Int) (d : Nat) : signed (s < 0) (s.natAbs / d) = s / d := by
  rw [Nat.cast_natAbs, signed]
  rcases lt_or_ge s 0 with h | h
  · rw [decide_eq_true h, if_pos rfl, abs_of_neg h]
    push_cast
    ring
  · rw [decide_eq_false (not_lt.2 h), if_neg Bool.false_ne_true, abs_of_nonneg h]

theorem signed_natAbs (n : Int) : signed (n < 0) n.natAbs = n := by
  have h := signed_natAbs_div n 1
  rwa [Nat.cast_one, div_one, div_one] at h

theorem ofInt_eq_round (f : Format) (n : Int) : ofInt f n = round f (n < 0) n.natAbs := by
  rw [ofInt, ofRatio_eq_round _ _ _ one_pos, Nat.cast_mul, Nat.cast_one, div_one,
    mul_div_cancel_right₀ _ f.one_cast_pos.ne']

/-- **An integer becomes the nearest number.** -/
theorem isRounded_ofInt (f : Format) (n : Int) : IsRounded (n < 0) n (ofInt f n) := by
  have h := isRounded_round (f := f) (Nat.cast_nonneg n.natAbs) (n < 0)
  rwa [signed_natAbs, ← ofInt_eq_round] at h

/-- The exact sum in units. -/
theorem toRat_add_toRat (x y : Binary f) :
    x.toRat + y.toRat = (x.toUnits + y.toUnits : Int) / f.one := by
  rw [toRat_eq_toUnits, toRat_eq_toUnits, Int.cast_add, add_div]

/-- Opposite numbers sum to `+0`, and only two `-0` to `-0`. -/
theorem add_of_toRat_add_eq_zero (hx : x.isFinite = true) (hy : y.isFinite = true)
    (h : x.toRat + y.toRat = 0) : x.add y = zero f (x.neg && y.neg) := by
  obtain ⟨hxn, hxi⟩ := isFinite_iff.1 hx
  obtain ⟨hyn, hyi⟩ := isFinite_iff.1 hy
  rw [toRat_add_toRat, div_eq_zero_iff, or_iff_left f.one_cast_pos.ne', Int.cast_eq_zero] at h
  simp only [add, hxn, hyn, hxi, hyi, Bool.false_eq_true, if_false, if_pos h]

/-- **A sum is rounded once**, unless it is zero. -/
theorem isRounded_add (hx : x.isFinite = true) (hy : y.isFinite = true)
    (h : x.toRat + y.toRat ≠ 0) :
    IsRounded (x.toRat + y.toRat < 0) (x.toRat + y.toRat) (x.add y) := by
  obtain ⟨hxn, hxi⟩ := isFinite_iff.1 hx
  obtain ⟨hyn, hyi⟩ := isFinite_iff.1 hy
  have hone := f.one_cast_pos
  rw [toRat_add_toRat] at h ⊢
  have hunits : x.toUnits + y.toUnits ≠ 0 := by
    intro h0
    rw [h0, Int.cast_zero, zero_div] at h
    exact h rfl
  have hneg : (((x.toUnits + y.toUnits : Int) : ℚ) / f.one < 0) ↔ x.toUnits + y.toUnits < 0 := by
    rw [div_lt_iff₀ hone, zero_mul, Int.cast_lt_zero]
  simp only [add, hxn, hyn, hxi, hyi, Bool.false_eq_true, if_false, if_neg hunits, hneg]
  rw [ofRatio_eq_round _ _ _ one_pos, Nat.cast_one, div_one, ← signed_natAbs_div]
  exact isRounded_round (by positivity) _

end Binary

end ScriptCell
