import Mathlib.Algebra.Order.BigOperators.Group.List
import Mathlib.Algebra.Order.Ring.Pow
import ScriptCell.Proofs.Binary.RoundingError
import ScriptCell.Proofs.Decimal.Whole
import ScriptCell.Proofs.Timing.Extremes

/-!
# Averages

The average of samples is rounded many times, the extremes are not rounded. So the average can lie
beyond them (`Timing.average_beyond_extremes`), but not farther than the roundings go
(`Timing.average_near_extremes`): one for each sample but the first (`Timing.within_sumOf`), one for
their number and one for the quotient (`Timing.within_averageOf`). What matters is the sum: where it
lies between the extremes, each taken as often as there are samples, the average lies between the
extremes (`Timing.averageOf_between`), since rounding is monotone and extremes are numbers of the
format.
-/

namespace ScriptCell.Timing

variable {xs : List Double} {x : Double}

/-! ## Finite samples that are not negative -/

/-- A finite sample that is not negative. -/
def IsDuration (x : Double) : Prop := x.isFinite = true ∧ 0 ≤ x.toRat

theorem IsDuration.of_numEq {y : Double} (hy : IsDuration y) (h : x.numEq y = true) :
    IsDuration x := by
  obtain ⟨-, -, rfl | ⟨hx, -⟩⟩ := Binary.numEq_iff.1 h
  · exact hy
  · refine ⟨Binary.isFinite_iff.2 ⟨Binary.isNaN_of_isZero hx, Binary.isInfinite_of_isZero hx⟩, ?_⟩
    exact (Binary.toRat_of_mag_eq_zero (Binary.isZero_iff.1 hx)).ge

/-- The sum of samples that is not rounded. -/
def exactSum (xs : List Double) : ℚ := (xs.map Binary.toRat).sum

theorem sumOf_concat (xs : List Double) (x : Double) : sumOf (xs ++ [x]) = (sumOf xs).add x := by
  rw [sumOf, List.foldl_append]
  rfl

theorem exactSum_concat (xs : List Double) (x : Double) :
    exactSum (xs ++ [x]) = exactSum xs + x.toRat := by
  rw [exactSum, List.map_append, List.sum_append, ← exactSum, List.map_singleton,
    List.sum_singleton]

/-- **A finite sum is as many roundings away from the exact one as there are samples but the
first.** -/
theorem within_sumOf (hxs : ∀ x ∈ xs, IsDuration x) (hsum : (sumOf xs).isFinite = true) :
    0 ≤ exactSum xs ∧ 0 ≤ (sumOf xs).toRat ∧
      Format.double.Within (xs.length - 1) 0 (exactSum xs) (sumOf xs).toRat := by
  induction xs using List.reverseRecOn with
  | nil =>
    have hzero : (sumOf []).toRat = 0 := Binary.toRat_of_mag_eq_zero rfl
    rw [hzero]
    exact ⟨le_rfl, le_rfl, .refl le_rfl 0⟩
  | append_singleton xs x ih =>
    rw [sumOf_concat] at hsum ⊢
    rw [exactSum_concat, List.length_append, List.length_singleton, Nat.add_sub_cancel]
    obtain ⟨hx, hx0⟩ := hxs x (List.mem_append_right xs (List.mem_singleton_self x))
    have hs := Binary.isFinite_of_add hx hsum
    obtain ⟨hexact, hs0, hwithin⟩ := ih (fun y hy => hxs y (List.mem_append_left _ hy)) hs
    obtain ⟨hsum0, hnear⟩ := Binary.nearest_add hs hx hs0 hx0 hsum
    refine ⟨add_nonneg hexact hx0, hsum0, ?_⟩
    cases xs with
    | nil =>
      -- the first sample is added to a zero, so that nothing is rounded
      have hzero : (sumOf []).toRat = 0 := Binary.toRat_of_mag_eq_zero rfl
      rw [hzero, zero_add, Binary.toRat_of_nonneg hx0] at hnear
      rw [Binary.toRat_of_nonneg hsum0, hnear.unique (Format.double.nearest_value _), exactSum,
        List.map_nil, List.sum_nil, zero_add, Binary.toRat_of_nonneg hx0]
      exact .refl (Format.double.value_nonneg _) 0
    | cons y ys => exact (hwithin.add_right hx0).trans (Binary.within_add hs hx hs0 hx0 hsum)

/-- The extremes of finite samples are finite and bound all of them. -/
theorem extremes_of_durations (hne : xs ≠ []) (hxs : ∀ x ∈ xs, IsDuration x) :
    IsDuration (leastOf xs) ∧ IsDuration (greatestOf xs) ∧
      ∀ x ∈ xs, (leastOf xs).toRat ≤ x.toRat ∧ x.toRat ≤ (greatestOf xs).toRat := by
  have hnan (x : Double) (hx : x ∈ xs) : x.isNaN = false := (Binary.isFinite_iff.1 (hxs x hx).1).1
  have hnumber : ∃ x ∈ xs, x.isNaN = false := by
    obtain ⟨x, hx⟩ := List.exists_mem_of_ne_nil xs hne
    exact ⟨x, hx, hnan x hx⟩
  obtain ⟨y, hy, hleast⟩ := exists_numEq_leastOf hnumber
  obtain ⟨z, hz, hgreatest⟩ := exists_numEq_greatestOf hnumber
  refine ⟨(hxs y hy).of_numEq hleast, (hxs z hz).of_numEq hgreatest, fun x hx => ?_⟩
  have hlow := (Binary.numLe_iff_rank.1 (numLe_leastOf hx (hnan x hx))).2.2
  have hhigh := (Binary.numLe_iff_rank.1 (numLe_greatestOf hx (hnan x hx))).2.2
  exact ⟨Binary.rank_le_rank_iff.1 hlow, Binary.rank_le_rank_iff.1 hhigh⟩

/-- The exact sum lies between the extremes, each taken as often as there are samples. -/
theorem exactSum_between (hne : xs ≠ []) (hxs : ∀ x ∈ xs, IsDuration x) :
    xs.length * (leastOf xs).toRat ≤ exactSum xs ∧
    exactSum xs ≤ xs.length * (greatestOf xs).toRat := by
  obtain ⟨-, -, hbounds⟩ := extremes_of_durations hne hxs
  rw [exactSum, ← List.length_map (f := Binary.toRat), ← nsmul_eq_mul, ← nsmul_eq_mul]
  constructor
  · refine List.card_nsmul_le_sum _ _ fun q hq => ?_
    obtain ⟨x, hx, rfl⟩ := List.mem_map.1 hq
    exact (hbounds x hx).1
  · refine List.sum_le_card_nsmul _ _ fun q hq => ?_
    obtain ⟨x, hx, rfl⟩ := List.mem_map.1 hq
    exact (hbounds x hx).2

/-! ## The average and its roundings -/

theorem averageOf_eq (hne : xs ≠ []) : averageOf xs = (sumOf xs).div (.ofInt .double xs.length) :=
  if_neg hne

/-- With a number of samples that is finite when it is rounded, the average is one rounding and half
a unit away from a quotient that is as many roundings away from the exact average as there are
samples. -/
theorem within_averageOf (hne : xs ≠ []) (hxs : ∀ x ∈ xs, IsDuration x)
    (hsum : (sumOf xs).isFinite = true)
    (hcount : (Binary.ofInt .double xs.length).isFinite = true) :
    IsDuration (averageOf xs) ∧ ∃ q, Format.double.Within xs.length 0 (exactSum xs / xs.length) q ∧
      Format.double.Within 1 Format.double.halfUnit q (averageOf xs).toRat := by
  have hpos := List.length_pos_of_ne_nil hne
  obtain ⟨hexact, hs0, hwithin⟩ := within_sumOf hxs hsum
  obtain ⟨hone, hcounted⟩ := Binary.within_ofInt hpos hcount
  obtain ⟨hfin, havg, hnear⟩ := Binary.nearest_div hsum hcount hs0 hone
  rw [← averageOf_eq hne] at hfin havg hnear
  have hcount0 := zero_lt_one.trans_le hone
  have hquot := hwithin.div hcounted hexact hs0 (Nat.cast_pos.2 hpos) hcount0
  rw [Nat.sub_add_cancel hpos] at hquot
  refine ⟨⟨hfin, havg⟩, _, hquot, ?_⟩
  rw [Binary.toRat_of_nonneg havg]
  exact hnear.within (div_nonneg hs0 hcount0.le)

/-- A number of samples that is infinite when it is rounded makes the average a zero. -/
theorem averageOf_of_infinite (hne : xs ≠ []) (hsum : (sumOf xs).isFinite = true)
    (hcount : (Binary.ofInt .double xs.length).isFinite = false) :
    IsDuration (averageOf xs) ∧ (averageOf xs).toRat = 0 := by
  obtain ⟨hsn, hsi⟩ := Binary.isFinite_iff.1 hsum
  have hcn : (Binary.ofInt .double xs.length).isNaN = false := Binary.isNaN_ofRatio ..
  have hci : (Binary.ofInt .double xs.length).isInfinite = true := by
    by_contra h
    rw [Binary.isFinite_iff.2 ⟨hcn, Bool.eq_false_iff.2 h⟩] at hcount
    cases hcount
  have hmag : (averageOf xs).mag = 0 := by
    simp only [averageOf_eq hne, Binary.div, hsn, hcn, hsi, hci, Bool.false_eq_true, if_false,
      if_true]
    rfl
  have hzero := Binary.toRat_of_mag_eq_zero hmag
  exact ⟨⟨Binary.isFinite_iff_mag_lt.2 (hmag ▸ Format.infPattern_pos _), hzero.ge⟩, hzero⟩

theorem errorFactor_double : Format.double.errorFactor = 1 + 1 / 2 ^ 53 := by
  have hhidden : Format.double.hidden = 2 ^ 52 := rfl
  rw [Format.errorFactor, hhidden]
  norm_num

theorem halfUnit_double : Format.double.halfUnit = 1 / 2 ^ 1075 := by
  have hscale : Format.double.scale + 1 = 1075 := rfl
  rw [Format.halfUnit_eq, hscale]

/-- The error factor doubles with every `2 ^ 53` roundings. -/
theorem two_pow_le_errorFactor_pow {n t : Nat} (h : 2 ^ 53 * t ≤ n) :
    2 ^ t ≤ Format.double.errorFactor ^ n := by
  have hdouble : (2 : ℚ) ≤ Format.double.errorFactor ^ 2 ^ 53 := calc
    (2 : ℚ) = 1 + (2 ^ 53 : Nat) * (1 / 2 ^ 53) := by norm_num
    _ ≤ (1 + 1 / 2 ^ 53) ^ 2 ^ 53 := one_add_mul_le_pow (by norm_num) _
    _ = Format.double.errorFactor ^ 2 ^ 53 := by rw [errorFactor_double]
  calc
    (2 : ℚ) ^ t ≤ (Format.double.errorFactor ^ 2 ^ 53) ^ t := by gcongr
    _ = Format.double.errorFactor ^ (2 ^ 53 * t) := (pow_mul _ _ _).symm
    _ ≤ Format.double.errorFactor ^ n := pow_le_pow_right₀ Format.double.one_le_errorFactor h

/-- **The average is not far above the greatest sample.** -/
theorem averageOf_le (hne : xs ≠ []) (hxs : ∀ x ∈ xs, IsDuration x)
    (hsum : (sumOf xs).isFinite = true) :
    (averageOf xs).toRat ≤
      (greatestOf xs).toRat * Format.double.errorFactor ^ (xs.length + 1) +
        Format.double.halfUnit := by
  have hfactor := Format.double.errorFactor_pos
  have hgreatest := (extremes_of_durations hne hxs).2.1.2
  cases hcount : (Binary.ofInt .double xs.length).isFinite with
  | false =>
    rw [(averageOf_of_infinite hne hsum hcount).2]
    exact add_nonneg (mul_nonneg hgreatest (by positivity)) Format.double.halfUnit_nonneg
  | true =>
    obtain ⟨-, q, hquot, hround⟩ := within_averageOf hne hxs hsum hcount
    have hle : exactSum xs / xs.length ≤ (greatestOf xs).toRat := by
      rw [div_le_iff₀' (Nat.cast_pos.2 (List.length_pos_of_ne_nil hne))]
      exact (exactSum_between hne hxs).2
    calc
      (averageOf xs).toRat ≤ q * Format.double.errorFactor ^ 1 + Format.double.halfUnit :=
        hround.right_le
      _ ≤ (exactSum xs / xs.length * Format.double.errorFactor ^ xs.length + 0) *
          Format.double.errorFactor ^ 1 + Format.double.halfUnit := by gcongr; exact hquot.right_le
      _ ≤ ((greatestOf xs).toRat * Format.double.errorFactor ^ xs.length + 0) *
          Format.double.errorFactor ^ 1 + Format.double.halfUnit := by gcongr
      _ = _ := by ring

/-- **The average is not far below the least sample.** -/
theorem le_averageOf (hne : xs ≠ []) (hxs : ∀ x ∈ xs, IsDuration x)
    (hsum : (sumOf xs).isFinite = true) :
    (leastOf xs).toRat / Format.double.errorFactor ^ (xs.length + 1) - Format.double.halfUnit ≤
      (averageOf xs).toRat := by
  have hfactor := Format.double.errorFactor_pos
  have hslack := Format.double.halfUnit_nonneg
  rw [sub_le_iff_le_add, div_le_iff₀ (by positivity)]
  cases hcount : (Binary.ofInt .double xs.length).isFinite with
  | false =>
    -- with so many samples the factor is larger than every finite number
    have hmany : 2 ^ 66 < xs.length := by
      by_contra h
      rw [Binary.isFinite_ofInt (t := 66) (by decide) (not_lt.1 h)] at hcount
      cases hcount
    obtain ⟨hfin, hleast⟩ := (extremes_of_durations hne hxs).1
    calc
      (leastOf xs).toRat ≤ 2 ^ 1024 := by
        rw [Binary.toRat_of_nonneg hleast]
        have htop := Format.double.value_strictMono (Binary.isFinite_iff_mag_lt.1 hfin)
        rw [Format.value_infPattern] at htop
        exact htop.le
      _ = 1 / 2 ^ 1075 * 2 ^ (1075 + 1024) := by
        rw [pow_add, ← mul_assoc, one_div_mul_cancel (pow_ne_zero _ two_ne_zero), one_mul]
      _ ≤ Format.double.halfUnit * Format.double.errorFactor ^ (xs.length + 1) := by
        rw [halfUnit_double]
        gcongr
        exact two_pow_le_errorFactor_pow (by omega)
      _ = _ := by rw [(averageOf_of_infinite hne hsum hcount).2, zero_add]
  | true =>
    obtain ⟨-, q, hquot, hround⟩ := within_averageOf hne hxs hsum hcount
    have hle : (leastOf xs).toRat ≤ exactSum xs / xs.length := by
      rw [le_div_iff₀' (Nat.cast_pos.2 (List.length_pos_of_ne_nil hne))]
      exact (exactSum_between hne hxs).1
    have hgrow : Format.double.halfUnit ≤ Format.double.halfUnit * Format.double.errorFactor :=
      le_mul_of_one_le_right hslack Format.double.one_le_errorFactor
    calc
      (leastOf xs).toRat ≤ q * Format.double.errorFactor ^ xs.length + 0 := hle.trans hquot.left_le
      _ ≤ ((averageOf xs).toRat * Format.double.errorFactor ^ 1 + Format.double.halfUnit) *
          Format.double.errorFactor ^ xs.length + 0 := by gcongr; exact hround.left_le
      _ ≤ ((averageOf xs).toRat * Format.double.errorFactor ^ 1 +
          Format.double.halfUnit * Format.double.errorFactor) *
            Format.double.errorFactor ^ xs.length + 0 := by
        gcongr
      _ = _ := by ring

/-! ## Averages between the extremes -/

/-- **The average lies between the extremes if the sum does**, the extremes taken as often as there
are samples, whose number is not rounded. -/
theorem averageOf_between (hne : xs ≠ []) (hxs : ∀ x ∈ xs, IsDuration x)
    (hsum : (sumOf xs).isFinite = true)
    (hcount : xs.length ≤ 2 ^ 53) (hlow : xs.length * (leastOf xs).toRat ≤ (sumOf xs).toRat)
    (hhigh : (sumOf xs).toRat ≤ xs.length * (greatestOf xs).toRat) :
    (leastOf xs).toRat ≤ (averageOf xs).toRat ∧ (averageOf xs).toRat ≤ (greatestOf xs).toRat := by
  have hpos : (0 : ℚ) < xs.length := Nat.cast_pos.2 (List.length_pos_of_ne_nil hne)
  have hone : (1 : ℚ) ≤ xs.length := by exact_mod_cast List.length_pos_of_ne_nil hne
  obtain ⟨⟨-, hleast⟩, ⟨-, hgreatest⟩, -⟩ := extremes_of_durations hne hxs
  have hwhole : (xs.length : Int).natAbs ≤ 2 * Format.double.hidden := hcount
  have hfin := (Binary.ofInt_whole (f := .double) (by decide) hwhole).1
  have hN : (Binary.ofInt .double xs.length).toRat = xs.length :=
    Binary.toRat_ofInt (by decide) hwhole
  obtain ⟨-, havg, hnear⟩ :=
    Binary.nearest_div hsum hfin (within_sumOf hxs hsum).2.1 (hone.trans_eq hN.symm)
  rw [← averageOf_eq hne] at havg hnear
  rw [hN] at hnear
  rw [Binary.toRat_of_nonneg hleast] at hlow ⊢
  rw [Binary.toRat_of_nonneg hgreatest] at hhigh ⊢
  rw [Binary.toRat_of_nonneg havg]
  have hmono := Format.double.value_strictMono.monotone
  constructor
  · exact hmono ((Format.double.nearest_value _).mono hnear ((le_div_iff₀' hpos).2 hlow))
  · exact hmono (hnear.mono (Format.double.nearest_value _) ((div_le_iff₀' hpos).2 hhigh))

/-- One sample is its own sum. -/
theorem toRat_sumOf_singleton (hx : IsDuration x) (h : (sumOf [x]).isFinite = true) :
    (sumOf [x]).toRat = x.toRat := by
  obtain ⟨-, -, hleft, hright⟩ := within_sumOf (List.forall_mem_singleton.2 hx) h
  have hexact : exactSum [x] = x.toRat := List.sum_singleton
  rw [List.length_singleton, Nat.sub_self, pow_zero, mul_one, add_zero, hexact] at hleft hright
  exact le_antisymm hright hleft

/-- The sum of one or two samples lies between the extremes, each taken as often: one sample is not
rounded, and twice a number is a number. -/
theorem sumOf_between (hne : xs ≠ []) (hxs : ∀ x ∈ xs, IsDuration x)
    (hsum : (sumOf xs).isFinite = true) (hlen : xs.length ≤ 2) :
    xs.length * (leastOf xs).toRat ≤ (sumOf xs).toRat ∧
      (sumOf xs).toRat ≤ xs.length * (greatestOf xs).toRat := by
  have hexact := exactSum_between hne hxs
  obtain ⟨⟨-, hleast⟩, ⟨-, hgreatest⟩, -⟩ := extremes_of_durations hne hxs
  obtain _ | ⟨x, _ | ⟨y, _ | ⟨z, zs⟩⟩⟩ := xs
  · exact absurd rfl hne
  · have hsingle : exactSum [x] = x.toRat := List.sum_singleton
    rwa [hsingle, ← toRat_sumOf_singleton (hxs x (List.mem_singleton_self x)) hsum] at hexact
  · obtain ⟨hx, hy⟩ : IsDuration x ∧ IsDuration y := by simpa using hxs
    have hfirst : (sumOf [x]).isFinite = true := Binary.isFinite_of_add hy.1 hsum
    have hxsum := toRat_sumOf_singleton hx hfirst
    obtain ⟨hs0, hnear⟩ := Binary.nearest_add hfirst hy.1 (hxsum ▸ hx.2) hy.2 hsum
    have hpair : (sumOf [x]).toRat + y.toRat = exactSum [x, y] := by
      rw [hxsum]
      simp [exactSum]
    rw [hpair] at hnear
    rw [Binary.toRat_of_nonneg hleast, Binary.toRat_of_nonneg hgreatest] at hexact ⊢
    rw [Binary.toRat_of_nonneg (x := sumOf [x, y]) hs0]
    exact ⟨hnear.two_mul_le hexact.1, hnear.le_two_mul hexact.2⟩
  · exact absurd hlen (by simp)

/-! ## Summaries -/

/-- The average of finite samples that are not negative is finite and not negative. -/
theorem isDuration_averageOf (hne : xs ≠ []) (hxs : ∀ x ∈ xs, IsDuration x)
    (hsum : (sumOf xs).isFinite = true) :
    IsDuration (averageOf xs) := by
  cases hcount : (Binary.ofInt .double xs.length).isFinite with
  | false => exact (averageOf_of_infinite hne hsum hcount).1
  | true => exact (within_averageOf hne hxs hsum hcount).1

theorem numLe_of_toRat_le {x y : Double} (hx : IsDuration x) (hy : IsDuration y)
    (h : x.toRat ≤ y.toRat) :
    x.numLe y = true :=
  Binary.numLe_iff_rank.2
    ⟨(Binary.isFinite_iff.1 hx.1).1, (Binary.isFinite_iff.1 hy.1).1, Binary.rank_le_rank_iff.2 h⟩

/-- **The average lies near the extremes**, for samples of which there are some, which are finite
and not negative and whose sum is finite. All three numbers of the summary are finite then.

Each rounding moves a number by one part in `2 ^ 53` at most, and there is one rounding for each
sample but the first, one for the number of samples and one for the quotient. So the average is at
most the greatest sample times as many factors `1 + 1 / 2 ^ 53`, and at least the least sample
divided by them, up to the half unit `1 / 2 ^ 1075` where a quotient is subnormal.

The average lies between the extremes if there are at most two samples, or if their sum is not
rounded and their number is at most `2 ^ 53`. -/
theorem average_near_extremes {xs : List Double} (hne : xs ≠ [])
    (hxs : ∀ x ∈ xs, x.isFinite = true ∧ 0 ≤ x.toRat) (hsum : (sumOf xs).isFinite = true) :
    let s := Summary.ofSamples xs
    let g : ℚ := (1 + 1 / 2 ^ 53) ^ (xs.length + 1)
    (s.least.isFinite = true ∧ s.average.isFinite = true ∧ s.greatest.isFinite = true) ∧
    (s.least.toRat / g - 1 / 2 ^ 1075 ≤ s.average.toRat ∧
      s.average.toRat ≤ s.greatest.toRat * g + 1 / 2 ^ 1075) ∧
    ((xs.length ≤ 2 ∨ (xs.length ≤ 2 ^ 53 ∧ (sumOf xs).toRat = (xs.map Binary.toRat).sum)) →
      s.least.numLe s.average = true ∧ s.average.numLe s.greatest = true) := by
  intro s g
  obtain ⟨hleast, hgreatest, -⟩ := extremes_of_durations hne hxs
  have havg := isDuration_averageOf hne hxs hsum
  refine ⟨⟨hleast.1, havg.1, hgreatest.1⟩, ⟨?_, ?_⟩, fun hexact => ?_⟩
  · have h := le_averageOf hne hxs hsum
    rwa [errorFactor_double, halfUnit_double] at h
  · have h := averageOf_le hne hxs hsum
    rwa [errorFactor_double, halfUnit_double] at h
  · obtain ⟨hcount, hlow, hhigh⟩ :
      xs.length ≤ 2 ^ 53 ∧ xs.length * (leastOf xs).toRat ≤ (sumOf xs).toRat ∧
        (sumOf xs).toRat ≤ xs.length * (greatestOf xs).toRat := by
      rcases hexact with hfew | ⟨hcount, hexact⟩
      · exact ⟨by omega, sumOf_between hne hxs hsum hfew⟩
      · exact ⟨hcount, hexact ▸ exactSum_between hne hxs⟩
    obtain ⟨hlow, hhigh⟩ := averageOf_between hne hxs hsum hcount hlow hhigh
    exact ⟨numLe_of_toRat_le hleast havg hlow, numLe_of_toRat_le havg hgreatest hhigh⟩

/-- The number nearest to a tenth. -/
def tenth : Double := .ofBits .double 0x3fb999999999999a

/-- Three whole numbers, whose sum is not rounded, and three tenths. -/
theorem average_of_whole_numbers_and_tenths :
    let xs : List Double := [.ofInt .double 1, .ofInt .double 3, .ofInt .double 2]
    let ys := [tenth, tenth, tenth]
    ((xs ≠ [] ∧ (∀ x ∈ xs, x.isFinite = true ∧ 0 ≤ x.toRat) ∧ (sumOf xs).isFinite = true ∧
      (xs.length ≤ 2 ^ 53 ∧ (sumOf xs).toRat = (xs.map Binary.toRat).sum)) ∧
      (Summary.ofSamples xs).average.numLe (Summary.ofSamples xs).greatest = true) ∧
    ((ys ≠ [] ∧ (∀ y ∈ ys, y.isFinite = true ∧ 0 ≤ y.toRat) ∧ (sumOf ys).isFinite = true) ∧
      (Summary.ofSamples ys).average.toRat ≤
        (Summary.ofSamples ys).greatest.toRat * (1 + 1 / 2 ^ 53) ^ 4 + 1 / 2 ^ 1075) := by
  intro xs ys
  have hxs : ∀ x ∈ xs, x.isFinite = true ∧ 0 ≤ x.toRat := by decide +kernel
  have hys : ∀ y ∈ ys, y.isFinite = true ∧ 0 ≤ y.toRat := by decide +kernel
  have hxsum : (sumOf xs).isFinite = true := by decide +kernel
  have hysum : (sumOf ys).isFinite = true := by decide +kernel
  have hexact : (sumOf xs).toRat = (xs.map Binary.toRat).sum := by decide +kernel
  have hcount : xs.length ≤ 2 ^ 53 := by decide
  exact ⟨⟨⟨List.cons_ne_nil _ _, hxs, hxsum, hcount, hexact⟩,
      ((average_near_extremes (List.cons_ne_nil _ _) hxs hxsum).2.2 (.inr ⟨hcount, hexact⟩)).2⟩,
    ⟨⟨List.cons_ne_nil _ _, hys, hysum⟩,
      (average_near_extremes (List.cons_ne_nil _ _) hys hysum).2.1.2⟩⟩

/-- **The average can lie beyond the extremes.** The average of three tenths is above the greatest
of them, and the average of ten tenths is below the least. -/
theorem average_beyond_extremes :
    let xs := List.replicate 3 tenth
    let ys := List.replicate 10 tenth
    (tenth.isFinite = true ∧ 0 ≤ tenth.toRat ∧ (sumOf xs).isFinite = true ∧
      (sumOf ys).isFinite = true) ∧
    (Summary.ofSamples xs).greatest.numLt (Summary.ofSamples xs).average = true ∧
    (Summary.ofSamples ys).average.numLt (Summary.ofSamples ys).least = true := by
  decide +kernel

end ScriptCell.Timing
