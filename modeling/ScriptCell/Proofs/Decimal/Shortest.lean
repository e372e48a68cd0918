import ScriptCell.Decimal.Shortest
import ScriptCell.Proofs.Decimal.Reading

/-!
# The shortest decimal reads back

The interval that the search works with holds exactly the numbers whose nearest pattern is the given
one (`Format.contains_rounding_iff`). Every decimal that the search returns lies in it, on whichever
grid it was found (`Format.nearest_search`), so the shortest decimal of a finite number reads as
that number (`Binary.ofDecimal_shortest`).
-/

namespace ScriptCell

/-! ## One grid -/

/-- A multiple that is found lies in the interval. -/
theorem Interval.contains_of_nearestMultiple? {i : Interval} {tie : Tie} {a b m : Nat}
    (h : i.nearestMultiple? tie a b = some m) : i.contains a (m * b) = true := by
  unfold nearestMultiple? at h
  simp only at h
  split at h
  · next hlow hhigh =>
    split at h <;> cases h
    · exact hhigh
    · exact hlow
  · next hlow _ => cases h; exact hlow
  · next _ hhigh => cases h; exact hhigh
  · cases h

namespace Format

variable {f : Format} {k : Nat}

/-- The interval of a pattern holds the numbers, given in half units, that are nearest to the
pattern. -/
theorem contains_rounding_iff (f : Format) (hk : 0 < k) {a : Nat} (ha : 0 < a) (x : Nat) :
    (f.rounding k).contains a x = true ↔ f.Nearest (x / a / (2 * f.one)) k := by
  obtain ⟨j, rfl⟩ : ∃ j, k = j + 1 := ⟨k - 1, by omega⟩
  have haq : (0 : ℚ) < a := Nat.cast_pos.2 ha
  have hone := f.one_cast_pos
  have hmid (l : Nat) :
      f.midpoint l = ((f.units l + f.units (l + 1)) * a : Nat) / a / (2 * f.one) := by
    rw [Nat.cast_mul, mul_div_cancel_right₀ _ haq.ne', midpoint, value, value]
    push_cast
    field_simp
  have hlt (y z : Nat) : (y : ℚ) / a / (2 * f.one) < z / a / (2 * f.one) ↔ y < z := by
    rw [div_lt_div_iff_of_pos_right (by positivity), div_lt_div_iff_of_pos_right haq, Nat.cast_lt]
  have heq (y z : Nat) : (y : ℚ) / a / (2 * f.one) = z / a / (2 * f.one) ↔ y = z := by
    rw [div_left_inj' (by positivity), div_left_inj' haq.ne', Nat.cast_inj]
  have hnearest : f.Nearest (x / a / (2 * f.one)) (j + 1) ↔
      (f.midpoint j < x / a / (2 * f.one) ∨ f.midpoint j = x / a / (2 * f.one) ∧ (j + 1) % 2 = 0) ∧
      (x / a / (2 * f.one) < f.midpoint (j + 1) ∨
        x / a / (2 * f.one) = f.midpoint (j + 1) ∧ (j + 1) % 2 = 0) :=
    ⟨fun h => ⟨h.below j rfl, h.above⟩, fun h => ⟨fun i hi => Nat.succ.inj hi ▸ h.1, h.2⟩⟩
  rw [hnearest, hmid, hmid, hlt, hlt, heq, heq]
  rcases Nat.mod_two_eq_zero_or_one (j + 1) with heven | hodd
  · simp only [rounding, Interval.contains, heven, Nat.add_sub_cancel, beq_self_eq_true, if_true,
      Bool.and_eq_true, decide_eq_true_eq, and_true, Nat.le_iff_lt_or_eq]
  · simp [rounding, Interval.contains, hodd]

/-- A point of a grid that is found is nearest to the pattern. -/
theorem nearest_gridPoint? {tie : Tie} {p : Int} {m : Nat} (hk : 0 < k)
    (h : f.gridPoint? tie k p = some m) : f.Nearest (m * 10 ^ p) k := by
  have hden : 0 < Nat.pow 10 (-p).toNat := Nat.pow_pos (by decide)
  have hin := (f.contains_rounding_iff hk hden _).1 (Interval.contains_of_nearestMultiple? h)
  have hone := f.one_cast_pos
  rw [Nat.cast_mul, Nat.cast_mul, Nat.cast_mul, Nat.cast_ofNat, ← mul_assoc, div_right_comm,
    mul_div_cancel_right₀ _ (by positivity), mul_div_assoc] at hin
  rwa [Decimal.zpow_ten_eq]

/-! ## The search -/

/-- The units of a pattern are its value on the finest grid that is needed. -/
theorem full_magnitude (f : Format) (k : Nat) :
    ((f.units k * 5 ^ f.scale : Nat) : ℚ) * 10 ^ (-(f.scale : Int)) = f.value k := by
  rw [value, one, Nat.pow_eq, zpow_neg, zpow_natCast, show (10 : ℚ) = 2 * 5 by norm_num, mul_pow]
  push_cast
  field_simp

/-- **What the search returns is nearest to the pattern**, on whichever grid it was found. -/
theorem nearest_search (tie : Tie) (hk : 0 < k) (n : Nat) (p : Int) :
    f.Nearest ((f.search tie k n p).1 * 10 ^ (f.search tie k n p).2) k := by
  induction n generalizing p with
  | zero =>
    have h := f.nearest_value k
    rwa [← full_magnitude] at h
  | succ n ih =>
    cases hgrid : f.gridPoint? tie k p with
    | none =>
      simp only [search, hgrid]
      exact ih (p - 1)
    | some m =>
      simp only [search, hgrid]
      exact nearest_gridPoint? hk hgrid

end Format

namespace Binary

variable {f : Format}

@[simp] theorem neg_shortest (tie : Tie) (x : Binary f) : (x.shortest tie).neg = x.neg := by
  unfold shortest
  split <;> rfl

/-- The shortest decimal of a number is nearest to its pattern. -/
theorem nearest_shortest (tie : Tie) (x : Binary f) :
    f.Nearest (x.shortest tie).magnitude x.mag := by
  unfold shortest
  split
  · next h =>
    rw [isZero_iff.1 h]
    simpa [Decimal.magnitude] using f.nearest_value 0
  · next h =>
    exact Format.nearest_search tie (mag_pos (Bool.eq_false_iff.2 h)) _ _

/-- **The shortest decimal reads back.** -/
theorem ofDecimal_shortest (tie : Tie) {x : Binary f} (hx : x.isFinite = true) :
    ofDecimal f (x.shortest tie) = x := by
  have hlt : x.mag < f.infPattern := of_decide_eq_true hx
  rw [ofDecimal_eq_round, neg_shortest]
  exact ext_of_mag rfl ((mag_round (x.nearest_shortest tie)).trans (min_eq_left hlt.le))

end Binary

end ScriptCell
