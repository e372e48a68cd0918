import ScriptCell.Proofs.Binary.Narrow
import ScriptCell.Proofs.Binary.Rounded
import ScriptCell.Proofs.Decimal.Layout

/-!
# Whole numbers

Up to `2 * hidden` every whole number is a number of the format (`Binary.toRat_ofInt`). The shortest
decimal of such a number need not have the exponent zero, but it has the same value
(`Format.search_whole`): a coarser grid has no other point that is rounded to the number. So the
number is written as the numeral of the integer (`Layout.text_whole`). The numeral of any integer,
whatever its size, is read as the number that the integer becomes (`numeralText_toString`,
`Binary.ofNumeral_int`).
-/

namespace ScriptCell

/-! ## Numerals -/

/-- Zeros are written behind a number that is multiplied by a power of ten. -/
theorem toDigits_mul_pow {d : Nat} (hd : 0 < d) (e : Nat) :
    Nat.toDigits 10 (d * 10 ^ e) = Nat.toDigits 10 d ++ List.replicate e '0' := by
  induction e with
  | zero => rw [pow_zero, mul_one, List.replicate_zero, List.append_nil]
  | succ e ih =>
    have hstep := Nat.toDigits_append_toDigits (b := 10) (n := d * 10 ^ e) (d := 0) (by decide)
      (Nat.mul_pos hd (Nat.pow_pos (by decide))) (by decide)
    rw [ih, List.append_assoc] at hstep
    rw [pow_succ', Nat.mul_left_comm, ← Nat.add_zero (10 * _), ← hstep, List.replicate_succ']
    rfl

/-- The numeral of an integer: the digits of its magnitude behind its sign. -/
theorem toString_eq_ofList (n : Int) :
    toString n = String.ofList ((if n < 0 then ['-'] else []) ++ Nat.toDigits 10 n.natAbs) := by
  rw [← String.toList_inj, String.toList_ofList]
  cases n with
  | ofNat m => simp [Int.toString_eq_repr, Int.repr]
  | negSucc m => simp [Int.toString_eq_repr, Int.repr, Int.negSucc_lt_zero]

/-- The numeral of an integer spells the integer. -/
theorem numeralText_toString (n : Int) :
    NumeralText (toString n).toList (.decimal ⟨n < 0, n.natAbs, 0⟩) := by
  have hbody := decimalText_whole (n < 0) (isDigits_toDigits n.natAbs) Nat.toDigits_ne_nil .none
  rw [Nat.ofDigitChars_ten_toDigits, List.append_nil] at hbody
  have hsign := signText_minus (n < 0)
  simp only [decide_eq_true_eq] at hsign
  rw [toString_eq_ofList, String.toList_ofList]
  exact .decimal hsign hbody

/-! ## Values of patterns -/

namespace Format

variable {f : Format} {k n : Nat}

/-- The number that follows `2 * hidden` in the next binade. -/
theorem exists_value_eq_two_mul_hidden_add_two (f : Format) :
    ∃ j, f.value j = 2 * f.hidden + 2 := by
  have hpos := f.hidden_pos
  obtain ⟨j, hj⟩ := f.exists_units_eq (m := f.hidden + 1) (by omega) (f.scale + 1)
  refine ⟨j, ?_⟩
  have hunits : f.units j = (2 * f.hidden + 2) * f.one := by
    rw [hj, one, Nat.pow_eq]
    ring
  rw [value, hunits, Nat.cast_mul, mul_div_cancel_right₀ _ f.one_cast_pos.ne']
  push_cast
  ring

/-- **No other even number is rounded to the pattern of a whole number** up to `2 * hidden`. -/
theorem Nearest.eq_of_even {m : Nat} (h : f.Nearest m k) (hk : f.value k = n)
    (hn : n ≤ 2 * f.hidden) (hm : 2 ∣ m) : m = n := by
  rcases Nat.lt_or_ge (2 * f.hidden) m with hlt | hle
  · -- the pattern of a larger even number is at least that of the second next integer
    obtain ⟨j, hj⟩ := f.exists_value_eq_two_mul_hidden_add_two
    have hge : (2 * f.hidden + 2 : ℚ) ≤ m := by
      have : 2 * f.hidden + 2 ≤ m := by omega
      exact_mod_cast this
    have hjk := f.value_strictMono.monotone ((f.nearest_value j).mono h (hj.trans_le hge))
    rw [hj, hk] at hjk
    have : 2 * f.hidden + 2 ≤ n := by exact_mod_cast hjk
    omega
  · obtain ⟨j, hj⟩ := f.exists_value_eq hle
    obtain rfl := h.unique (hj ▸ f.nearest_value j)
    exact_mod_cast hj.symm.trans hk

/-! ## The search -/

/-- On the grid of the whole numbers, the number itself is found. -/
theorem gridPoint?_zero (tie : Tie) (h : 0 < k) (hk : f.value k = n) :
    f.gridPoint? tie k 0 = some n := by
  have hone := f.one_pos
  have hunits : f.units k = n * f.one := by
    rw [value, div_eq_iff f.one_cast_pos.ne'] at hk
    exact_mod_cast hk
  have hpos : 0 < 1 * (2 * f.one) := by omega
  have hcentre : (f.rounding k).centre * 1 = n * (1 * (2 * f.one)) := by
    rw [rounding, hunits]
    ring
  have hin : (f.rounding k).contains 1 (n * (1 * (2 * f.one))) = true := by
    have hhalf : (0 : ℚ) < 2 * f.one := mul_pos two_pos f.one_cast_pos
    rw [f.contains_rounding_iff h Nat.one_pos, Nat.one_mul, Nat.cast_one, div_one, Nat.cast_mul,
      Nat.cast_mul, Nat.cast_ofNat, mul_div_cancel_right₀ _ hhalf.ne', ← hk]
    exact f.nearest_value k
  change (f.rounding k).nearestMultiple? tie 1 (1 * (2 * f.one)) = some n
  unfold Interval.nearestMultiple?
  simp only [hcentre, Nat.mul_div_cancel _ hpos, Nat.mul_mod_left, hin]
  -- nothing is left over, so that the next multiple is not taken even if it is in the interval
  cases (f.rounding k).contains 1 ((n + 1) * (1 * (2 * f.one))) with
  | true => simp [hone.ne']
  | false => rfl

/-- **The search ends at the whole number**, on the grid of a power of ten that divides it. -/
theorem search_whole (tie : Tie) (h : 0 < k) (hk : f.value k = n) (hn : n ≤ 2 * f.hidden)
    {fuel p : Nat} (hp : p < fuel) :
    ∃ d e : Nat, f.search tie k fuel p = (d, (e : Int)) ∧ d * 10 ^ e = n := by
  induction fuel generalizing p with
  | zero => exact absurd hp (Nat.not_lt_zero p)
  | succ fuel ih =>
    cases hgrid : f.gridPoint? tie k p with
    | none =>
      cases p with
      | zero => rw [Nat.cast_zero, f.gridPoint?_zero tie h hk] at hgrid; cases hgrid
      | succ p =>
        simp only [search, hgrid]
        rw [Nat.cast_succ, Int.add_sub_cancel]
        exact ih (Nat.lt_of_succ_lt_succ hp)
    | some m =>
      refine ⟨m, p, by simp only [search, hgrid], ?_⟩
      cases p with
      | zero =>
        rw [Nat.cast_zero, f.gridPoint?_zero tie h hk] at hgrid
        rw [pow_zero, mul_one, Option.some.inj hgrid]
      | succ p =>
        have hnear := nearest_gridPoint? h hgrid
        rw [zpow_natCast, ← Nat.cast_ofNat, ← Nat.cast_pow, ← Nat.cast_mul] at hnear
        exact hnear.eq_of_even hk hn (dvd_mul_of_dvd_right (dvd_pow (by decide) p.succ_ne_zero) m)

end Format

/-! ## Integers as numbers -/

namespace Binary

variable {f : Format} {x : Binary f} {n : Int}

@[simp] theorem neg_ofInt (f : Format) (n : Int) : (ofInt f n).neg = decide (n < 0) := rfl

/-- **Up to `2 * hidden` integers are numbers of the format**, if it reaches that far. -/
theorem ofInt_whole (hrange : f.fracBits + 1 < 2 ^ (f.expBits - 1)) (hn : n.natAbs ≤ 2 * f.hidden) :
    (ofInt f n).isFinite = true ∧ (ofInt f n).magnitude = n.natAbs := by
  obtain ⟨j, hj⟩ := f.exists_value_eq hn
  have hlt : j < f.infPattern := by
    have htop : n.natAbs < 2 ^ 2 ^ (f.expBits - 1) := calc
      n.natAbs ≤ 2 ^ (f.fracBits + 1) := by rwa [f.hidden_eq, ← pow_succ'] at hn
      _ < 2 ^ 2 ^ (f.expBits - 1) := Nat.pow_lt_pow_right (by decide) hrange
    rw [← f.value_strictMono.lt_iff_lt, hj, f.value_infPattern]
    exact_mod_cast htop
  have hmag : (ofInt f n).mag = j := by rw [ofInt_eq_round, ← hj, mag_round_value hlt.le]
  rw [isFinite_iff_mag_lt, magnitude, hmag]
  exact ⟨hlt, hj⟩

/-- The decimal of an integer is rounded as the integer is. -/
theorem ofNumeral_int (f : Format) (n : Int) :
    ofNumeral f (.decimal ⟨n < 0, n.natAbs, 0⟩) = ofInt f n := by
  rw [ofNumeral, ofDecimal_eq_round, Decimal.magnitude, zpow_zero, mul_one, ofInt_eq_round]

/-- An integer that a wide format holds is rounded once when it is narrowed. -/
theorem convert_ofInt {g : Format} (h : f.Wider g) (hrange : f.fracBits + 1 < 2 ^ (f.expBits - 1))
    (hn : n.natAbs ≤ 2 * f.hidden) : (ofInt f n).convert g = ofInt g n := by
  obtain ⟨hfin, hmag⟩ := ofInt_whole hrange hn
  rw [convert_eq_round h (isFinite_iff.1 hfin).1, hmag, neg_ofInt, ofInt_eq_round]

theorem toRat_ofInt (hrange : f.fracBits + 1 < 2 ^ (f.expBits - 1)) (hn : n.natAbs ≤ 2 * f.hidden) :
    (ofInt f n).toRat = n := by
  rw [toRat, (ofInt_whole hrange hn).2, neg_ofInt, signed_natAbs]

/-- The shortest decimal of a whole number and the zeros behind it are the digits of the integer. -/
theorem exists_shortest_whole (tie : Tie) {m : Nat} (hx : x.magnitude = m) (hm : m ≤ 2 * f.hidden) :
    ∃ d e : Nat, x.shortest tie = ⟨x.neg, d, e⟩ ∧
      Nat.toDigits 10 d ++ List.replicate e '0' = Nat.toDigits 10 m := by
  unfold shortest
  split
  · next hzero =>
    have h0 : m = 0 := by
      rw [magnitude, isZero_iff.1 hzero, f.value_zero] at hx
      exact_mod_cast hx.symm
    exact ⟨0, 0, rfl, by rw [h0]; rfl⟩
  · next hzero =>
    have hpos := mag_pos (Bool.eq_false_iff.2 hzero)
    have htop : f.topExponent x.mag < f.topExponent x.mag + f.scale + 1 := by omega
    obtain ⟨d, e, hsearch, hde⟩ := Format.search_whole tie hpos hx hm htop
    have hm0 : 0 < m := by
      have hlt : f.value 0 < x.magnitude := f.value_strictMono hpos
      rw [f.value_zero, hx] at hlt
      exact_mod_cast hlt
    have hd : 0 < d := Nat.pos_of_mul_pos_right (hde ▸ hm0)
    exact ⟨d, e, by simp only [hsearch], by rw [← toDigits_mul_pow hd, hde]⟩

end Binary

/-- **A whole number is written as the numeral of the integer**, in a layout without exponents and
without `.0`. -/
theorem Layout.text_whole {f : Format} {l : Layout} (hl : l.positional = none)
    (hp : l.pointZero = false)
    {x : Binary f} {n : Int} (hx : x.isFinite = true) (hneg : x.neg = decide (n < 0))
    (hmag : x.magnitude = n.natAbs) (hn : n.natAbs ≤ 2 * f.hidden) : l.text x = toString n := by
  obtain ⟨hnan, hinf⟩ := Binary.isFinite_iff.1 hx
  obtain ⟨d, e, hshort, hdigits⟩ := Binary.exists_shortest_whole l.tie hmag hn
  rw [text, hnan, hinf, hshort, toString_eq_ofList, ← hdigits, hneg]
  simp [decimalChars, magnitudeChars, isPositional, positionalChars, hl, hp]

end ScriptCell
