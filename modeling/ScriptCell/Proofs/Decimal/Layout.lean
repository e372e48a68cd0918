import ScriptCell.Decimal.Layout
import ScriptCell.Proofs.Decimal.Grammar
import ScriptCell.Proofs.Decimal.Shortest

/-!
# Written numbers are read

Whatever its decisions, a layout writes a decimal as number text of the same sign and value
(`Layout.exists_numeralText`): with zeros behind the digits, with a point inside or in front of
them, or with an exponent. So a finite number, once written, is read in any format as its shortest
decimal (`Layout.ofText?_text`).
-/

namespace ScriptCell

/-! ## Digits of a number -/

variable {neg : Bool} {cs ds : List Char}

theorem isDigits_append {ds' : List Char} : IsDigits (ds ++ ds') ↔ IsDigits ds ∧ IsDigits ds' :=
  List.forall_mem_append

theorem isDigits_toDigits (n : Nat) : IsDigits (Nat.toDigits 10 n) :=
  fun _ hc => Nat.isDigit_of_mem_toDigits (by decide) (by decide) hc

theorem isDigits_zeros (n : Nat) : IsDigits (List.replicate n '0') := fun c hc => by
  rw [List.eq_of_mem_replicate hc]
  rfl

/-- Zeros behind digits multiply by a power of ten. -/
theorem ofDigitChars_append_zeros (ds : List Char) (n : Nat) :
    Nat.ofDigitChars 10 (ds ++ List.replicate n '0') 0 = Nat.ofDigitChars 10 ds 0 * 10 ^ n := by
  rw [Nat.ofDigitChars_append, Nat.ofDigitChars_replicate_zero, Nat.mul_comm]

/-- Zeros in front of digits change nothing. -/
theorem ofDigitChars_zeros_append (ds : List Char) (n : Nat) :
    Nat.ofDigitChars 10 (List.replicate n '0' ++ ds) 0 = Nat.ofDigitChars 10 ds 0 := by
  rw [Nat.ofDigitChars_append, Nat.ofDigitChars_replicate_zero, Nat.mul_zero]

/-! ## Decimals as layouts write them -/

theorem DecimalText.neg_eq {d : Decimal} (h : DecimalText neg cs d) : d.neg = neg := by
  cases h
  rfl

/-- Digits with a point in them. -/
theorem decimalText_point (neg : Bool) {whole fraction tail : List Char} {e : Int}
    (hw : IsDigits whole) (hf : IsDigits fraction) (hne : whole ++ fraction ≠ [])
    (he : ExponentText tail e) :
    DecimalText neg (whole ++ '.' :: (fraction ++ tail))
      ⟨neg, Nat.ofDigitChars 10 (whole ++ fraction) 0, e - fraction.length⟩ :=
  .mk hw (.some hf) hne he

/-- Digits without a point. -/
theorem decimalText_whole (neg : Bool) {whole tail : List Char} {e : Int} (hw : IsDigits whole)
    (hne : whole ≠ []) (he : ExponentText tail e) :
    DecimalText neg (whole ++ tail) ⟨neg, Nat.ofDigitChars 10 whole 0, e⟩ := by
  have h : DecimalText neg (whole ++ ([] ++ tail))
      ⟨neg, Nat.ofDigitChars 10 (whole ++ []) 0, e - ([] : List Char).length⟩ :=
    .mk hw .none (by simpa using hne) he
  simpa using h

/-- A minus for negative numbers is a sign. -/
theorem signText_minus (neg : Bool) : SignText (if neg then ['-'] else []) neg := by
  cases neg
  · exact .none
  · exact .minus

/-- A written exponent is read. -/
theorem exponentText_toDigits {sign : List Char} {lead : Int} (hs : SignText sign (lead < 0)) :
    ExponentText ('e' :: (sign ++ Nat.toDigits 10 lead.natAbs)) lead := by
  have h := ExponentText.some (.inl rfl) hs (isDigits_toDigits lead.natAbs) Nat.toDigits_ne_nil
  rw [Nat.ofDigitChars_ten_toDigits] at h
  convert h
  simp only [decide_eq_true_eq]
  split <;> omega

namespace Layout

variable {f : Format}

/-- Positional text has the value of its digits. -/
theorem exists_decimalText_positional (l : Layout) (neg : Bool) (n : Nat) (p : Int) :
    ∃ d, DecimalText neg (l.positionalChars (Nat.toDigits 10 n) p) d ∧
      d.magnitude = n * 10 ^ p := by
  have hds := isDigits_toDigits n
  have hn : Nat.ofDigitChars 10 (Nat.toDigits 10 n) 0 = n := Nat.ofDigitChars_ten_toDigits
  have hne : Nat.toDigits 10 n ≠ [] := Nat.toDigits_ne_nil
  unfold positionalChars
  simp only
  generalize Nat.toDigits 10 n = ds at hds hn hne
  split
  · next hp =>
    -- zeros up to the point, and perhaps one behind it
    obtain ⟨z, rfl⟩ : ∃ z : Nat, p = z := ⟨p.toNat, by omega⟩
    have hwhole : IsDigits (ds ++ List.replicate z '0') := isDigits_append.2 ⟨hds, isDigits_zeros z⟩
    have hval := ofDigitChars_append_zeros ds z
    rw [Int.toNat_natCast]
    split
    · refine ⟨_, decimalText_point neg hwhole (isDigits_zeros 1) (by simp [hne]) .none, ?_⟩
      rw [Decimal.magnitude, ofDigitChars_append_zeros, hval, hn, zpow_natCast]
      simp
    · refine ⟨_, decimalText_whole neg hwhole (by simp [hne]) .none, ?_⟩
      rw [Decimal.magnitude, hval, hn, zpow_natCast]
      simp
  · next hp =>
    obtain ⟨z, rfl⟩ : ∃ z : Nat, p = -z := ⟨(-p).toNat, by omega⟩
    rw [Int.neg_neg, Int.toNat_natCast]
    split
    · next hlt =>
      -- the point stands between the digits
      have hsplit := List.take_append_drop (ds.length - z) ds
      have hparts := isDigits_append.1 (hsplit.symm ▸ hds)
      have h := decimalText_point neg hparts.1 hparts.2 (by rwa [hsplit]) .none
      rw [hsplit, hn, List.append_nil, List.length_drop] at h
      refine ⟨_, h, ?_⟩
      rw [Decimal.magnitude]
      congr 2
      simp only
      omega
    · next hge =>
      -- the point and zeros stand in front of the digits
      have hfraction : IsDigits (List.replicate (z - ds.length) '0' ++ ds) :=
        isDigits_append.2 ⟨isDigits_zeros _, hds⟩
      have h := decimalText_point neg (isDigits_zeros 1) hfraction (by simp) .none
      rw [ofDigitChars_zeros_append, ofDigitChars_zeros_append, hn, List.append_nil,
        List.length_append, List.length_replicate] at h
      refine ⟨_, h, ?_⟩
      rw [Decimal.magnitude]
      congr 2
      simp only
      omega

/-- An exponent is written with a sign for its sign. -/
theorem signText_lead (l : Layout) (lead : Int) :
    SignText (if lead < 0 then ['-'] else if l.plusSign then ['+'] else []) (lead < 0) := by
  split
  · next h => simpa [h] using SignText.minus
  · next h =>
    rw [decide_eq_false h]
    split
    · exact .plus
    · exact .none

/-- Text with an exponent has the value of its digits. -/
theorem exists_decimalText_exponential (l : Layout) (neg : Bool) (n : Nat) (p : Int) :
    ∃ d, DecimalText neg
        (l.exponentialChars (Nat.toDigits 10 n) (p + (Nat.toDigits 10 n).length - 1)) d ∧
      d.magnitude = n * 10 ^ p := by
  have hds := isDigits_toDigits n
  have hn : Nat.ofDigitChars 10 (Nat.toDigits 10 n) 0 = n := Nat.ofDigitChars_ten_toDigits
  have hne : Nat.toDigits 10 n ≠ [] := Nat.toDigits_ne_nil
  unfold exponentialChars
  simp only
  generalize Nat.toDigits 10 n = ds at hds hn hne
  generalize hlead : p + ds.length - 1 = lead
  have htail := exponentText_toDigits (l.signText_lead lead)
  rw [List.append_assoc, List.cons_append]
  match ds, hne with
  | [c], _ =>
    refine ⟨_, decimalText_whole neg hds (by simp) htail, ?_⟩
    rw [Decimal.magnitude, hn, ← hlead]
    simp
  | c :: c' :: cs, _ =>
    have hparts := isDigits_append.1 (show IsDigits ([c] ++ c' :: cs) from hds)
    refine ⟨_, decimalText_point neg hparts.1 hparts.2 (by simp) htail, ?_⟩
    rw [Decimal.magnitude, List.singleton_append, hn]
    congr 2
    simp only [← hlead, List.length_cons]
    omega

/-- **Every layout writes number text** of the same sign and value. -/
theorem exists_numeralText (l : Layout) (d : Decimal) :
    ∃ d', NumeralText (l.decimalChars d) (.decimal d') ∧ d'.neg = d.neg ∧
      d'.magnitude = d.magnitude := by
  have hbody : ∃ d', DecimalText d.neg (l.magnitudeChars d) d' ∧ d'.magnitude = d.magnitude := by
    unfold magnitudeChars
    simp only
    split
    · exact l.exists_decimalText_positional d.neg d.digits d.exponent
    · exact l.exists_decimalText_exponential d.neg d.digits d.exponent
  obtain ⟨d', hd, hm⟩ := hbody
  exact ⟨d', .decimal (signText_minus d.neg) hd, hd.neg_eq, hm⟩

/-- A finite number, once written, is read in any format as its shortest decimal. -/
theorem ofText?_text (l : Layout) (g : Format) {x : Binary f} (hx : x.isFinite = true) :
    Binary.ofText? g (l.text x) = some (.ofDecimal g (x.shortest l.tie)) := by
  obtain ⟨hnan, hinf⟩ := Binary.isFinite_iff.1 hx
  obtain ⟨d, hd, hn, hm⟩ := l.exists_numeralText (x.shortest l.tie)
  simp only [text, hnan, hinf, Bool.false_eq_true, if_false]
  rw [Binary.ofText?, String.toList_ofList, Numeral.ofChars?_eq_some_iff.2 hd, Option.map_some,
    Binary.ofNumeral, Binary.ofDecimal_congr hn hm]

end Layout

end ScriptCell
