import ScriptCell.Proofs.Binary.Rounded
import ScriptCell.Proofs.Value.PartialOrder

/-!
# The number view of text

Text has a number view whatever it says: the numeral that its trimmed characters spell, rounded
once, or `+0` if they spell none (`numberOfText_of_trimmed`, `numberOfText_eq_zero`). Decimals are
rounded to nearest with their own sign (`Binary.isRounded_ofDecimal`), and since rounding respects
the order, so does the order of texts that spell decimals (`Value.compare?_of_decimals`).
-/

namespace ScriptCell

/-! ## Decimals -/

/-- The rational number that a decimal is. -/
def Decimal.toRat (d : Decimal) : ℚ := signed d.neg d.magnitude

namespace Binary

/-- **A decimal is read as the nearest number**, with the sign of the decimal. -/
theorem isRounded_ofDecimal (f : Format) (d : Decimal) :
    IsRounded d.neg d.toRat (ofDecimal f d) := by
  rw [ofDecimal_eq_round]
  exact isRounded_round d.magnitude_nonneg d.neg

/-- Reading decimals respects their order. -/
theorem rank_ofDecimal_mono (f : Format) {d d' : Decimal} (h : d.toRat ≤ d'.toRat) :
    (ofDecimal f d).rank ≤ (ofDecimal f d').rank := by
  rw [ofDecimal_eq_round, ofDecimal_eq_round]
  exact rank_round_mono f d.magnitude_nonneg d'.magnitude_nonneg h

/-- Numbers whose ranks are in order are not ordered the other way round. -/
theorem exists_compare?_of_rank_le {f : Format} {x y : Binary f} (hx : x.isNaN = false)
    (hy : y.isNaN = false) (h : x.rank ≤ y.rank) : ∃ o, x.compare? y = some o ∧ o ≠ .gt :=
  ⟨_, compare?_eq_some_iff.2 ⟨hx, hy, rfl⟩, fun hgt => Int.not_lt.2 h (Int.compare_eq_gt.1 hgt)⟩

end Binary

/-! ## Trimmed text -/

variable {s s' : String} {d d' : Decimal}

/-- The view of text that is no number text after trimming is `+0`. -/
theorem numberOfText_eq_zero (h : ∀ v, ¬ NumeralText (trim s).toList v) :
    numberOfText s = .zero .single false := by
  have hnone : Binary.ofText? .single (trim s) = none := by
    rw [Option.eq_none_iff_forall_ne_some]
    intro x hx
    obtain ⟨v, hv, -⟩ := numeralText_of_ofText? hx
    exact h v hv
  rw [numberOfText, hnone, Option.getD_none]

namespace Value

/-- Texts that spell decimals are ordered, and never the other way round than the decimals. -/
theorem compare?_of_decimals (hd : NumeralText (trim s).toList (.decimal d))
    (hd' : NumeralText (trim s').toList (.decimal d')) (h : d.toRat ≤ d'.toRat) :
    ∃ o, (string s).compare? (string s') = .ok (some o) ∧ o ≠ .gt := by
  have hcompare : (string s).compare? (string s') =
      .ok ((numberOfText s).compare? (numberOfText s')) :=
    compare?_of_numberView (.inl rfl) rfl rfl rfl
  rw [numberOfText_of_trimmed hd, numberOfText_of_trimmed hd'] at hcompare
  obtain ⟨o, ho, hgt⟩ := Binary.exists_compare?_of_rank_le (Binary.isNaN_ofDecimal .single d)
    (Binary.isNaN_ofDecimal .single d') (Binary.rank_ofDecimal_mono .single h)
  exact ⟨o, hcompare.trans (congrArg Except.ok ho), hgt⟩

/-- **The number view of text is correctly rounded or zero.** Text always has a number view. If its
trimmed characters spell a decimal, the view is that decimal rounded to nearest, ties to even, with
the sign of the decimal also where it is zero; if they spell a word for infinity or a NaN, the view
is that; and if they spell nothing, it is `+0`. So texts that differ in the white space around them
have one view, and texts that spell decimals are never ordered the other way round than these. -/
theorem view_of_text (s : String) :
    (∃ x : Single, (string s).numberView = .ok x ∧
      (∀ d, NumeralText (trim s).toList (.decimal d) → x.IsRounded d.neg d.toRat) ∧
      (∀ neg, NumeralText (trim s).toList (.infinity neg) → x = .infinity .single neg) ∧
      (∀ neg, NumeralText (trim s).toList (.nan neg) → x = .nan .single neg) ∧
      ((∀ v, ¬ NumeralText (trim s).toList v) → x = .zero .single false)) ∧
    (∀ s', trim s = trim s' → (string s).numberView = (string s').numberView) ∧
    ∀ s' d d', NumeralText (trim s).toList (.decimal d) →
      NumeralText (trim s').toList (.decimal d') → d.toRat ≤ d'.toRat →
      (∃ o, (string s).compare? (string s') = .ok (some o) ∧ o ≠ .gt) ∧
        OrderOp.gt.apply (string s) (string s') = .ok false := by
  refine ⟨⟨numberOfText s, rfl, fun d hd => ?_, fun neg h => numberOfText_of_trimmed h,
    fun neg h => numberOfText_of_trimmed h, numberOfText_eq_zero⟩, fun s' h => ?_,
    fun s' d d' hd hd' h => ?_⟩
  · rw [numberOfText_of_trimmed hd]
    exact Binary.isRounded_ofDecimal .single d
  · exact congrArg (fun t => Except.ok ((Binary.ofText? .single t).getD _)) h
  · obtain ⟨o, ho, hgt⟩ := compare?_of_decimals hd hd' h
    refine ⟨⟨o, ho, hgt⟩, ?_⟩
    rw [OrderOp.apply_of_compare? ho]
    cases o with
    | gt => exact absurd rfl hgt
    | lt | eq => rfl

/-- A tie in text between blanks, an underflow that keeps its sign, a word and no number; the first
two are in order. -/
theorem view_of_text_tie_and_underflow :
    (∃ x : Single, (string "\u00a016777217 ").numberView = .ok x ∧ x.IsRounded false 16777217) ∧
    (∃ x : Single, (string "-1e-99").numberView = .ok x ∧
      x.IsRounded true (-(1 * 10 ^ (-99 : Int)))) ∧
    (string "-INF").numberView = .ok (.infinity .single true) ∧
    (string "1_0").numberView = .ok (.zero .single false) ∧
    OrderOp.gt.apply (string "-1e-99") (string "\u00a016777217 ") = .ok false := by
  have htie : NumeralText (trim "\u00a016777217 ").toList (.decimal ⟨false, 16777217, 0⟩) :=
    Numeral.ofChars?_eq_some_iff.1 (by decide +kernel)
  have htiny : NumeralText (trim "-1e-99").toList (.decimal ⟨true, 1, -99⟩) :=
    Numeral.ofChars?_eq_some_iff.1 (by decide +kernel)
  have hword : NumeralText (trim "-INF").toList (.infinity true) :=
    Numeral.ofChars?_eq_some_iff.1 (by decide +kernel)
  have hnone (v : Numeral) : ¬ NumeralText (trim "1_0").toList v := by
    rw [← Numeral.ofChars?_eq_some_iff,
      show Numeral.ofChars? (trim "1_0").toList = none by decide +kernel]
    exact nofun
  obtain ⟨⟨x, hx, hxd, -⟩, -⟩ := view_of_text "\u00a016777217 "
  obtain ⟨⟨y, hy, hyd, -⟩, -, horder⟩ := view_of_text "-1e-99"
  obtain ⟨⟨z, hz, -, hzw, -⟩, -⟩ := view_of_text "-INF"
  obtain ⟨⟨w, hw, -, -, -, hwz⟩, -⟩ := view_of_text "1_0"
  obtain rfl := hzw true hword
  obtain rfl := hwz hnone
  have hxr := hxd _ htie
  have hyr := hyd _ htiny
  have hle : Decimal.toRat ⟨true, 1, -99⟩ ≤ Decimal.toRat ⟨false, 16777217, 0⟩ := by
    norm_num [Decimal.toRat, Decimal.magnitude, signed]
  refine ⟨⟨x, hx, ?_⟩, ⟨y, hy, ?_⟩, hz, hw, (horder _ _ _ htiny htie hle).2⟩
  · simpa [Decimal.toRat, Decimal.magnitude, signed] using hxr
  · simpa [Decimal.toRat, Decimal.magnitude, signed] using hyr

end Value

end ScriptCell
