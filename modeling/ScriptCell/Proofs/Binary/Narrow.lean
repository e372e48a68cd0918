import ScriptCell.Binary.Convert
import ScriptCell.Proofs.Binary.Nearest

/-!
# Rounding to a wide format first

A number that is rounded to a wide format and then narrowed is rounded twice. Every midpoint of the
narrow format is a value of the wide one (`Format.Wider.exists_value_eq_midpoint`), so the first
rounding never carries a number across such a midpoint; but it can carry it onto one, and then the
second rounding sees a tie where there was none. That is the only way in which the two roundings
differ from one (`Binary.convert_round_eq_iff`), and it is a difference of one pattern, the even
neighbour for the odd one (`Binary.FalseTie.mag_eq`).
-/

namespace ScriptCell

/-! ## Wide and narrow formats -/

namespace Format

variable {f g : Format}

/-- `f` has a longer significand than `g` and no smaller exponents. -/
structure Wider (f g : Format) : Prop where
  fracBits : g.fracBits < f.fracBits
  expBits : g.expBits ≤ f.expBits

theorem double_wider_single : double.Wider single := ⟨by decide, by decide⟩

/-- A unit of the narrow format is an even number of units of the wide one. -/
theorem Wider.exists_one_eq (h : f.Wider g) : ∃ t, f.one = g.one * 2 ^ (t + 1) := by
  have hexp : 2 ^ (g.expBits - 1) ≤ 2 ^ (f.expBits - 1) :=
    Nat.pow_le_pow_right (by decide) (Nat.sub_le_sub_right h.expBits 1)
  have hpos : 0 < 2 ^ (g.expBits - 1) := Nat.two_pow_pos _
  have hfrac := h.fracBits
  have hg := g.fracBits_pos
  refine ⟨f.scale - g.scale - 1, ?_⟩
  simp only [one, scale, Nat.pow_eq, ← pow_add]
  congr 1
  omega

theorem Wider.two_mul_hidden_le (h : f.Wider g) : 2 * g.hidden ≤ f.hidden := by
  rw [hidden_eq, hidden_eq, ← pow_succ']
  exact Nat.pow_le_pow_right (by decide) h.fracBits

/-- Infinity is no smaller in the wide format. -/
theorem Wider.value_infPattern_le (h : f.Wider g) :
    g.value g.infPattern ≤ f.value f.infPattern := by
  rw [value_infPattern, value_infPattern]
  exact pow_le_pow_right₀ (by norm_num)
    (Nat.pow_le_pow_right (by decide) (Nat.sub_le_sub_right h.expBits 1))

/-- Every midpoint between finite patterns of the narrow format is a value of the wide one. -/
theorem Wider.exists_value_eq_midpoint (h : f.Wider g) {k : Nat} (hk : k < g.infPattern) :
    ∃ j, j ≤ f.infPattern ∧ f.value j = g.midpoint k := by
  obtain ⟨e, s, rfl, hlow, hhigh⟩ := g.exists_binade k
  obtain ⟨t, ht⟩ := h.exists_one_eq
  have hsig := h.two_mul_hidden_le
  obtain ⟨j, hj⟩ := f.exists_units_eq (m := 2 * s + 1) (by omega) (e + t)
  have hone := g.one_cast_pos
  have hvalue : f.value j = g.midpoint (e * g.hidden + s) := by
    rw [value, hj, ht, midpoint_binade hlow hhigh]
    push_cast
    field_simp
    ring
  have hlt : f.value j < f.value f.infPattern := calc
    f.value j < g.value (e * g.hidden + s + 1) := hvalue ▸ g.midpoint_lt_value _
    _ ≤ g.value g.infPattern := g.value_strictMono.monotone hk
    _ ≤ f.value f.infPattern := h.value_infPattern_le
  exact ⟨j, (f.value_strictMono.lt_iff_lt.1 hlt).le, hvalue⟩

end Format

/-! ## Narrowing -/

namespace Binary

open Format (Wider)

variable {f g : Format} {neg : Bool} {q : ℚ} {k : Nat}

@[simp] theorem neg_convert (g : Format) (x : Binary f) : (x.convert g).neg = x.neg := by
  unfold convert
  split
  · rfl
  · split <;> rfl

/-- Conversion keeps NaNs and makes none. -/
@[simp] theorem isNaN_convert (g : Format) (x : Binary f) : (x.convert g).isNaN = x.isNaN := by
  unfold convert
  split
  · next h => rw [h, isNaN_nan]
  · next h =>
    rw [Bool.eq_false_iff.2 h]
    split
    · exact isNaN_infinity _
    · exact isNaN_ofRatio ..

@[simp] theorem convert_infinity (g : Format) (neg : Bool) :
    (infinity f neg).convert g = infinity g neg := by
  simp [convert, isNaN, isInfinite, infinity]

@[simp] theorem convert_nan (g : Format) (neg : Bool) : (nan f neg).convert g = nan g neg :=
  if_pos (isNaN_nan neg)

/-- Narrowing rounds the magnitude. -/
theorem convert_eq_round (h : f.Wider g) {x : Binary f} (hx : x.isNaN = false) :
    x.convert g = round g x.neg x.magnitude := by
  unfold convert
  rw [hx]
  simp only [Bool.false_eq_true, if_false]
  split
  · next hinf =>
    have hmag := isInfinite_iff.1 hinf
    obtain ⟨k, hk⟩ := g.exists_nearest (f.value_nonneg x.mag)
    have hle : g.infPattern ≤ k :=
      (g.nearest_value _).mono hk (hmag ▸ h.value_infPattern_le)
    exact ext_of_mag rfl ((mag_round hk).trans (min_eq_right hle)).symm
  · rw [ofRatio_eq_round _ _ _ f.one_pos, Nat.cast_mul, div_right_comm,
      mul_div_cancel_right₀ _ g.one_cast_pos.ne']
    rfl

/-- Rounding to the wide format does not carry a number above a midpoint of the narrow one. -/
theorem magnitude_round_le_midpoint (h : f.Wider g) (neg : Bool) (hk : k < g.infPattern)
    (hq0 : 0 ≤ q) (hq : q ≤ g.midpoint k) : (round f neg q).magnitude ≤ g.midpoint k := by
  obtain ⟨j, hfin, hj⟩ := h.exists_value_eq_midpoint hk
  have hmono := mag_round_mono f neg neg hq0 (hq.trans_eq hj.symm)
  rw [mag_round_value hfin] at hmono
  exact hj ▸ f.value_strictMono.monotone hmono

/-- Rounding to the wide format does not carry a number below a midpoint of the narrow one. -/
theorem midpoint_le_magnitude_round (h : f.Wider g) (neg : Bool) (hk : k < g.infPattern)
    (hq : g.midpoint k ≤ q) : g.midpoint k ≤ (round f neg q).magnitude := by
  obtain ⟨j, hfin, hj⟩ := h.exists_value_eq_midpoint hk
  have hmono := mag_round_mono f neg neg (f.value_nonneg j) (hj.trans_le hq)
  rw [mag_round_value hfin] at hmono
  exact hj ▸ f.value_strictMono.monotone hmono

/-! ## Ties that the first rounding makes -/

/-- Rounded to a wide format, `q` is the number `x` halfway between the patterns `k` and `k + 1` of
`g`, while `q` itself lies on the side of the odd one of the two. -/
structure FalseTie (g : Format) (q : ℚ) (x : Binary f) (k : Nat) : Prop where
  finite : k < g.infPattern
  tie : x.magnitude = g.midpoint k
  side : if k % 2 = 0 then g.midpoint k < q else q < g.midpoint k

/-- What the first rounding carries onto a midpoint lies between the midpoints next to that one,
since none of them is crossed. Only the first pattern has no midpoint below it, only the last one
none above. -/
theorem nearest_bounds_of_tie (h : f.Wider g) (hq : 0 ≤ q) (hk : k < g.infPattern)
    (htie : (round f neg q).magnitude = g.midpoint k) {l : Nat} (hl : g.Nearest q l) :
    k ≤ l ∧ (k + 1 < g.infPattern → l ≤ k + 1) := by
  constructor
  · by_contra hlt
    obtain ⟨j, rfl⟩ : ∃ j, k = j + 1 := ⟨k - 1, by omega⟩
    have hle := magnitude_round_le_midpoint h neg (by omega) hq (hl.le_midpoint (by omega : l ≤ j))
    rw [htie] at hle
    exact absurd (g.midpoint_strictMono j.lt_succ_self) (not_lt.2 hle)
  · intro hnext
    by_contra hgt
    have hle := midpoint_le_magnitude_round h neg hnext (hl.midpoint_le (Nat.lt_of_not_le hgt))
    rw [htie] at hle
    exact absurd (g.midpoint_strictMono k.lt_succ_self) (not_lt.2 hle)

/-- At a false tie, rounding twice gives the even one of the two patterns and rounding once the odd
one. -/
theorem FalseTie.mag_eq (h : f.Wider g) (hq : 0 ≤ q) (ht : FalseTie g q (round f neg q) k) :
    ((round f neg q).convert g).mag = k + k % 2 ∧ (round g neg q).mag = k + (k + 1) % 2 := by
  obtain ⟨hk, htie, hside⟩ := ht
  obtain ⟨l, hl⟩ := g.exists_nearest hq
  obtain ⟨hlow, hhigh⟩ := nearest_bounds_of_tie h hq hk htie hl
  constructor
  · rw [convert_eq_round h isNaN_round, htie, mag_round (g.nearest_midpoint k)]
    omega
  · rw [mag_round hl]
    rcases Nat.mod_two_eq_zero_or_one k with heven | hodd
    · rw [if_pos heven] at hside
      have habove : k < l := by
        by_contra hle
        exact absurd (hl.le_midpoint (Nat.le_of_not_lt hle)) (not_le.2 hside)
      omega
    · rw [if_neg (by omega)] at hside
      have hbelow : l ≤ k := by
        by_contra hgt
        exact absurd (hl.midpoint_le (Nat.lt_of_not_le hgt)) (not_le.2 hside)
      omega

/-- **Rounding twice is rounding once, but for false ties.** -/
theorem convert_round_eq_iff (h : f.Wider g) (hq : 0 ≤ q) :
    (round f neg q).convert g = round g neg q ↔ ∀ k, ¬ FalseTie g q (round f neg q) k := by
  constructor
  · intro heq k ht
    obtain ⟨htwice, honce⟩ := ht.mag_eq h hq
    rw [heq] at htwice
    omega
  · intro hno
    obtain ⟨k, hk⟩ := g.exists_nearest hq
    obtain ⟨l, hl⟩ : ∃ l, g.Nearest (round f neg q).magnitude l :=
      g.exists_nearest (f.value_nonneg _)
    rw [convert_eq_round h isNaN_round]
    refine ext_of_mag rfl ?_
    rw [mag_round hk, mag_round hl]
    by_contra hne
    -- otherwise the midpoint next to the smaller one of the patterns is a false tie
    rcases Nat.lt_or_gt_of_ne (fun h : k = l => hne (h ▸ rfl)) with hlt | hgt
    · have hfin : k < g.infPattern := by omega
      have htie : (round f neg q).magnitude = g.midpoint k :=
        le_antisymm (magnitude_round_le_midpoint h neg hfin hq (hk.le_midpoint le_rfl))
          (hl.midpoint_le hlt)
      have hpar : l = k + k % 2 := hl.unique (htie ▸ g.nearest_midpoint k)
      refine hno k ⟨hfin, htie, ?_⟩
      rw [if_neg (by omega)]
      exact hk.above.resolve_right (by omega)
    · have hfin : l < g.infPattern := by omega
      have htie : (round f neg q).magnitude = g.midpoint l :=
        le_antisymm (hl.le_midpoint le_rfl)
          (midpoint_le_magnitude_round h neg hfin (hk.midpoint_le hgt))
      have hpar : l = l + l % 2 := hl.unique (htie ▸ g.nearest_midpoint l)
      refine hno l ⟨hfin, htie, ?_⟩
      rw [if_pos (by omega)]
      refine lt_of_le_of_ne (hk.midpoint_le hgt) fun heq => ?_
      have := hk.unique (heq ▸ g.nearest_midpoint l)
      omega

end Binary

end ScriptCell
