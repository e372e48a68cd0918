import Mathlib.Data.Rat.Floor
import ScriptCell.Binary.Round
import ScriptCell.Proofs.Binary.Order
import ScriptCell.Proofs.Binary.Units

/-!
# Rounding finds the nearest pattern

`Format.Nearest q k` says that `k` is the pattern nearest to the number `q`: `q` lies between the
midpoints below and above `k`, and on a midpoint only if `k` is even. There is exactly one such
pattern (`Format.exists_nearest`, `Format.Nearest.unique`), it grows with the number
(`Format.Nearest.mono`), and `Format.roundPattern` finds it (`Format.roundPattern_of_nearest`),
where the patterns beyond infinity become infinity. So a rounded number depends on the rational
number alone: `Binary.round` is rounding as a function of that.
-/

namespace ScriptCell

namespace Format

variable {f : Format} {q q' : ℚ} {k l : Nat}

/-! ## The nearest pattern -/

/-- `k` is the pattern nearest to `q`, and of two equally near ones the even one. Patterns go on
beyond infinity here. -/
structure Nearest (f : Format) (q : ℚ) (k : Nat) : Prop where
  below : ∀ j, k = j + 1 → f.midpoint j < q ∨ f.midpoint j = q ∧ k % 2 = 0
  above : q < f.midpoint k ∨ q = f.midpoint k ∧ k % 2 = 0

theorem Nearest.midpoint_le (h : f.Nearest q k) (hl : l < k) : f.midpoint l ≤ q := by
  obtain ⟨j, rfl⟩ : ∃ j, k = j + 1 := ⟨k - 1, by omega⟩
  have hj : f.midpoint j ≤ q := by
    rcases h.below j rfl with h | ⟨h, -⟩
    · exact h.le
    · exact h.le
  exact (f.midpoint_strictMono.monotone (Nat.le_of_lt_succ hl)).trans hj

theorem Nearest.le_midpoint (h : f.Nearest q k) (hl : k ≤ l) : q ≤ f.midpoint l := by
  have hk : q ≤ f.midpoint k := by
    rcases h.above with h | ⟨h, -⟩
    · exact h.le
    · exact h.le
  exact hk.trans (f.midpoint_strictMono.monotone hl)

/-- A larger number has no smaller nearest pattern. -/
theorem Nearest.mono (h : f.Nearest q k) (h' : f.Nearest q' l) (hq : q ≤ q') : k ≤ l := by
  by_contra hlt
  have hlt : l < k := Nat.lt_of_not_le hlt
  -- both numbers are the one midpoint between the patterns, and then both patterns are even
  have hle := h.midpoint_le hlt
  have hge := h'.le_midpoint le_rfl
  obtain ⟨j, rfl⟩ : ∃ j, k = j + 1 := ⟨k - 1, by omega⟩
  have hj : f.midpoint j = f.midpoint l :=
    le_antisymm ((h.midpoint_le j.lt_succ_self).trans (hq.trans hge))
      (f.midpoint_strictMono.monotone (Nat.le_of_lt_succ hlt))
  obtain rfl := f.midpoint_strictMono.injective hj
  have hodd := h.below j rfl
  have heven := h'.above
  rcases hodd with hodd | ⟨-, hodd⟩
  · exact absurd (hodd.trans_le (hq.trans hge)) (lt_irrefl _)
  · rcases heven with heven | ⟨-, heven⟩
    · exact absurd (hle.trans (hq.trans_lt heven).le) (by linarith)
    · omega

/-- There is one nearest pattern at most. -/
theorem Nearest.unique (h : f.Nearest q k) (h' : f.Nearest q l) : k = l :=
  le_antisymm (h.mono h' le_rfl) (h'.mono h le_rfl)

/-- Between two midpoints the pattern is the nearest one. -/
theorem nearest_of_between (hlow : ∀ j, k = j + 1 → f.midpoint j < q) (hhigh : q < f.midpoint k) :
    f.Nearest q k := ⟨fun j hj => .inl (hlow j hj), .inl hhigh⟩

/-- The nearest pattern of a value is its pattern. -/
theorem nearest_value (f : Format) (k : Nat) : f.Nearest (f.value k) k :=
  nearest_of_between (fun j hj => hj ▸ f.midpoint_lt_value j) (f.value_lt_midpoint k)

/-- The nearest pattern of a midpoint is the even one of its two neighbours. -/
theorem nearest_midpoint (f : Format) (k : Nat) : f.Nearest (f.midpoint k) (k + k % 2) := by
  rcases Nat.mod_two_eq_zero_or_one k with heven | hodd
  · rw [heven]
    exact ⟨fun j hj => .inl (f.midpoint_strictMono (by omega)), .inr ⟨rfl, heven⟩⟩
  · rw [hodd]
    refine ⟨fun j hj => .inr ⟨?_, by omega⟩, .inl (f.midpoint_strictMono k.lt_succ_self)⟩
    rw [Nat.succ.inj hj]

/-- From the value of a pattern to the next value, the nearest pattern changes at the midpoint. -/
theorem nearest_of_bracket (hlow : f.value k ≤ q) (hhigh : q < f.value (k + 1)) :
    f.Nearest q
      (if f.midpoint k < q ∨ f.midpoint k = q ∧ k % 2 = 1 then k + 1 else k) := by
  have hprev (j : Nat) (hj : k = j + 1) : f.midpoint j < q := by
    have := f.midpoint_lt_value j
    rw [← hj] at this
    exact this.trans_le hlow
  rcases lt_trichotomy (f.midpoint k) q with hlt | rfl | hgt
  · rw [if_pos (.inl hlt)]
    refine nearest_of_between (fun j hj => ?_) (hhigh.trans (f.value_lt_midpoint _))
    rwa [← Nat.succ.inj hj]
  · have h := f.nearest_midpoint k
    rcases Nat.mod_two_eq_zero_or_one k with heven | hodd
    · simpa [heven] using h
    · simpa [hodd] using h
  · rw [if_neg (by rintro (h | ⟨h, -⟩) <;> linarith)]
    exact nearest_of_between hprev hgt

/-! ## The pattern that rounding finds -/

variable {n d : Nat}

/-- The binade in which rounding works holds the quotient: its significand in units of the binade
has full length, or the binade is the first one. -/
theorem significand_bounds (f : Format) (n d : Nat) :
    let e := (n / d).log2 - f.fracBits
    (e = 0 ∨ f.hidden ≤ n / (d * 2 ^ e)) ∧ n / (d * 2 ^ e) < 2 * f.hidden := by
  intro e
  rw [← Nat.div_div_eq_div_mul, hidden_eq, ← pow_succ']
  have hlt : n / d < 2 ^ ((n / d).log2 + 1) := Nat.lt_log2_self
  constructor
  · rcases Nat.eq_zero_or_pos e with he | he
    · exact .inl he
    · have hn : n / d ≠ 0 := by
        intro h0
        simp only [e, h0, Nat.log2_zero] at he
        omega
      have hle : 2 ^ (n / d).log2 ≤ n / d := Nat.log2_self_le hn
      refine .inr ((Nat.le_div_iff_mul_le (Nat.two_pow_pos e)).2 ?_)
      rw [← pow_add]
      rwa [show f.fracBits + e = (n / d).log2 by omega]
  · rw [Nat.div_lt_iff_lt_mul (Nat.two_pow_pos e), ← pow_add]
    exact hlt.trans_le (Nat.pow_le_pow_right (by decide) (by omega))

/-- Rounding a quotient to a whole number, by the half above its whole part. -/
theorem roundDiv_eq_ite (n : Nat) (hd : 0 < d) :
    roundDiv n d =
      if ((n / d : Nat) : ℚ) + 1 / 2 < n / d ∨ ((n / d : Nat) : ℚ) + 1 / 2 = n / d ∧ n / d % 2 = 1
      then n / d + 1 else n / d := by
  have hdq : (0 : ℚ) < d := Nat.cast_pos.2 hd
  have hsplit : (n : ℚ) / d = (n / d : Nat) + (n % d : Nat) / d := by
    rw [div_eq_iff hdq.ne', add_mul, div_mul_cancel₀ _ hdq.ne']
    exact_mod_cast (Nat.div_add_mod' n d).symm
  have hlt : ((n / d : Nat) : ℚ) + 1 / 2 < n / d ↔ d < 2 * (n % d) := by
    rw [hsplit, add_lt_add_iff_left, div_lt_div_iff₀ two_pos hdq, one_mul, mul_comm]
    exact_mod_cast Iff.rfl
  have heq : ((n / d : Nat) : ℚ) + 1 / 2 = n / d ↔ d = 2 * (n % d) := by
    rw [hsplit, add_right_inj, div_eq_div_iff two_ne_zero hdq.ne', one_mul, mul_comm _ (2 : ℚ)]
    exact_mod_cast Iff.rfl
  simp only [roundDiv, hlt, heq]

/-- **Rounding finds the nearest pattern**, before it is cut off at infinity. -/
theorem nearest_roundDiv (f : Format) (n : Nat) (hd : 0 < d) :
    let e := (n / d).log2 - f.fracBits
    f.Nearest (n / d / f.one) (e * f.hidden + roundDiv n (d * 2 ^ e)) := by
  intro e
  obtain ⟨hlow, hhigh⟩ := f.significand_bounds n d
  change (e = 0 ∨ f.hidden ≤ n / (d * 2 ^ e)) at hlow
  change n / (d * 2 ^ e) < 2 * f.hidden at hhigh
  have hstep : (0 : ℚ) < 2 ^ e / f.one := div_pos (by positivity) f.one_cast_pos
  have hquot : (n : ℚ) / d / f.one = n / (d * 2 ^ e : Nat) * (2 ^ e / f.one) := by
    push_cast
    field_simp
  -- the whole part of the quotient, in steps of the binade, is the significand below it
  set s := n / (d * 2 ^ e) with hs
  have hfloor : ⌊(n : ℚ) / (d * 2 ^ e : Nat)⌋₊ = s := Rat.natFloor_natCast_div_natCast _ _
  have hbelow : (s : ℚ) ≤ n / (d * 2 ^ e : Nat) := hfloor ▸ Nat.floor_le (by positivity)
  have habove : (n : ℚ) / (d * 2 ^ e : Nat) < s + 1 := hfloor ▸ Nat.lt_floor_add_one _
  have hbracket := nearest_of_bracket (f := f) (q := n / d / f.one) (k := e * f.hidden + s)
    (by rw [value_binade hlow hhigh.le, hquot]; exact mul_le_mul_of_nonneg_right hbelow hstep.le)
    (by
      rw [Nat.add_assoc, value_binade (by omega) hhigh, hquot, Nat.cast_succ]
      exact mul_lt_mul_of_pos_right habove hstep)
  simp only [midpoint_binade hlow hhigh, hquot, mul_lt_mul_iff_left₀ hstep, mul_left_inj' hstep.ne',
    binade_mod_two] at hbracket
  rw [roundDiv_eq_ite n (Nat.mul_pos hd (Nat.two_pow_pos e)), ← hs, hquot]
  split at hbracket
  · next h => rwa [if_pos h]
  · next h => rwa [if_neg h]

/-- Every number that is not negative has a nearest pattern. -/
theorem exists_nearest (f : Format) (hq : 0 ≤ q) : ∃ k, f.Nearest q k := by
  have h := f.nearest_roundDiv (q.num.natAbs * f.one) q.den_pos
  have hone := f.one_cast_pos
  have hnum : ((q.num.natAbs : Nat) : ℚ) = q.num := by
    rw [Nat.cast_natAbs, abs_of_nonneg (Rat.num_nonneg.2 hq)]
  have hquot : ((q.num.natAbs * f.one : Nat) : ℚ) / q.den / f.one = q := by
    rw [Nat.cast_mul, hnum, div_right_comm, mul_div_cancel_right₀ _ hone.ne', Rat.num_div_den]
  rw [hquot] at h
  exact ⟨_, h⟩

/-- Rounding a quotient of units gives the pattern nearest to its value, cut off at infinity. -/
theorem roundPattern_of_nearest (hd : 0 < d) (h : f.Nearest (n / d / f.one) k) :
    f.roundPattern n d = min k f.infPattern := by
  rw [h.unique (f.nearest_roundDiv n hd)]
  rfl

end Format

/-! ## Rounding as a function of the number -/

namespace Binary

variable {f : Format} {neg : Bool} {q q' : ℚ}

/-- The magnitude of a number; for an infinity the next power of two would be it. -/
def magnitude (x : Binary f) : ℚ := f.value x.mag

/-- The number of the given sign whose magnitude is nearest to `q`. -/
def round (f : Format) (neg : Bool) (q : ℚ) : Binary f := ofRatio f neg (q.num.toNat * f.one) q.den

@[simp] theorem neg_round : (round f neg q).neg = neg := rfl

@[simp] theorem isNaN_round : (round f neg q).isNaN = false := isNaN_ofRatio ..

/-- Rounding gives the nearest pattern, cut off at infinity. -/
theorem mag_round {k : Nat} (h : f.Nearest q k) : (round f neg q).mag = Min.min k f.infPattern := by
  refine Format.roundPattern_of_nearest q.den_pos ?_
  rw [Nat.cast_mul, div_right_comm, mul_div_cancel_right₀ _ f.one_cast_pos.ne']
  rcases le_total 0 q with hq | hq
  · have hnum : ((q.num.toNat : Nat) : ℚ) = q.num := by
      exact_mod_cast Int.toNat_of_nonneg (Rat.num_nonneg.2 hq)
    rwa [hnum, Rat.num_div_den]
  · -- a negative number is rounded to zero, and so is zero
    have hzero : f.Nearest 0 0 := by simpa using f.nearest_value 0
    obtain rfl : k = 0 := Nat.le_zero.1 (h.mono hzero hq)
    rw [Int.toNat_of_nonpos (Rat.num_nonpos.2 hq)]
    simpa using hzero

/-- Rounding a quotient of units depends on its value only. -/
theorem ofRatio_eq_round (f : Format) (neg : Bool) (n : Nat) {d : Nat} (hd : 0 < d) :
    ofRatio f neg n d = round f neg (n / d / f.one) := by
  have h := f.nearest_roundDiv n hd
  exact ext_of_mag rfl ((Format.roundPattern_of_nearest hd h).trans (mag_round h).symm)

/-- Rounding is monotone. -/
theorem mag_round_mono (f : Format) (neg neg' : Bool) (hq : 0 ≤ q) (hqq : q ≤ q') :
    (round f neg q).mag ≤ (round f neg' q').mag := by
  obtain ⟨k, hk⟩ := f.exists_nearest hq
  obtain ⟨l, hl⟩ := f.exists_nearest (hq.trans hqq)
  rw [mag_round hk, mag_round hl]
  exact min_le_min_right _ (hk.mono hl hqq)

/-- The value of a pattern is rounded to itself. -/
theorem mag_round_value {k : Nat} (hk : k ≤ f.infPattern) : (round f neg (f.value k)).mag = k := by
  rw [mag_round (f.nearest_value k), min_eq_left hk]

/-- A number is what its magnitude is rounded to, unless it is a NaN. -/
theorem round_magnitude {x : Binary f} (hx : x.isNaN = false) :
    round f x.neg x.magnitude = x := by
  have hle : x.mag ≤ f.infPattern := by simpa [isNaN] using hx
  exact ext_of_mag rfl (mag_round_value hle)

end Binary

end ScriptCell
