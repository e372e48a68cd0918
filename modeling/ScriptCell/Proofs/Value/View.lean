import ScriptCell.Value.View
import ScriptCell.Proofs.Decimal.Layout
import ScriptCell.Proofs.Value.Equality

/-!
# Numbers as text and back

The number view of text that spells a numeral is that numeral rounded once
(`numberOfText_of_numeralText`), and white space around text is not seen by the view
(`numberOfText_spaced`). The text of a number spells the number: its shortest decimal, or a word for
an infinity or a NaN. So the text view loses nothing (`Value.text_view_loses_nothing`).
-/

namespace ScriptCell

/-! ## Text as a number -/

/-- Text that spells a numeral is read as the number nearest to it. -/
theorem ofText?_of_numeralText (f : Format) {s : String} {v : Numeral}
    (h : NumeralText s.toList v) : Binary.ofText? f s = some (.ofNumeral f v) := by
  rw [Binary.ofText?, Numeral.ofChars?_eq_some_iff.2 h, Option.map_some]

/-- Text that is read as a number spells a numeral. -/
theorem numeralText_of_ofText? {f : Format} {s : String} {x : Binary f}
    (h : Binary.ofText? f s = some x) : ∃ v, NumeralText s.toList v ∧ x = .ofNumeral f v := by
  obtain ⟨v, hv, rfl⟩ := Option.map_eq_some_iff.1 h
  exact ⟨v, Numeral.ofChars?_eq_some_iff.1 hv, rfl⟩

/-- The number view of text is the numeral that is left of it after trimming, rounded once. -/
theorem numberOfText_of_trimmed {s : String} {v : Numeral} (h : NumeralText (trim s).toList v) :
    numberOfText s = .ofNumeral .single v := by
  rw [numberOfText, ofText?_of_numeralText .single h, Option.getD_some]

/-- Number text has nothing to trim. -/
theorem numberOfText_of_numeralText {s : String} {v : Numeral} (h : NumeralText s.toList v) :
    numberOfText s = .ofNumeral .single v :=
  numberOfText_of_trimmed (by rwa [toList_trim, h.trimChars_eq])

/-- White space around text is not seen by its number view. -/
theorem numberOfText_spaced {front back : String} (hf : AllBlank front.toList)
    (hb : AllBlank back.toList) (s : String) :
    numberOfText (front ++ s ++ back) = numberOfText s := by
  have htrim : trim (front ++ s ++ back) = trim s := by
    rw [trim_eq_trim_iff, String.toList_append, String.toList_append, trimChars_append_back hb,
      trimChars_append_front hf]
  rw [numberOfText, htrim, numberOfText]

/-! ## A number as text -/

/-- The text of a number, read in any format: its shortest decimal, or the word for an infinity or a
NaN. -/
theorem ofText?_display (g : Format) {f : Format} (x : Binary f) :
    Binary.ofText? g (displayLayout.text x) =
      some (if x.isNaN then .nan g false
        else if x.isInfinite then .infinity g x.neg
        else .ofDecimal g (x.shortest .up)) := by
  split
  · next hnan =>
    have hword : Numeral.ofChars? "NaN".toList = some (.nan false) := by decide
    rw [Layout.text, if_pos hnan, Binary.ofText?, hword]
    rfl
  · next hnan =>
    split
    · next hinf =>
      rw [Layout.text, if_neg hnan, if_pos hinf, Binary.ofText?]
      have hword :
          Numeral.ofChars? ((if x.neg then "-" else "") ++ displayLayout.infinityWord).toList =
            some (.infinity x.neg) := by
        cases x.neg <;> decide
      rw [hword]
      rfl
    · next hinf =>
      exact displayLayout.ofText?_text g
        (Binary.isFinite_iff.2 ⟨by simpa using hnan, by simpa using hinf⟩)

/-- Read in its own format, the text of a number is that number, unless it is a NaN. -/
theorem ofText?_display_self {f : Format} {x : Binary f} (hx : x.isNaN = false) :
    Binary.ofText? f (displayLayout.text x) = some x := by
  rw [ofText?_display, hx]
  simp only [Bool.false_eq_true, if_false]
  split
  · next hinf => exact congrArg some (Binary.infinity_neg_eq hinf)
  · next hinf =>
    have hfin : x.isFinite = true := Binary.isFinite_iff.2 ⟨hx, by simpa using hinf⟩
    exact congrArg some (Binary.ofDecimal_shortest .up hfin)

namespace Value

/-- The text of a number, with white space around it, is read as the number itself, unless that is a
NaN. -/
theorem numberOfText_display {x : Single} {front back : String} (hf : AllBlank front.toList)
    (hb : AllBlank back.toList) :
    numberOfText (front ++ displayLayout.text x ++ back) =
      if x.isNaN then .nan .single false else x := by
  rw [numberOfText_spaced hf hb]
  split
  · next hnan =>
    obtain ⟨v, hv, hx⟩ := numeralText_of_ofText? (ofText?_display .single x)
    rw [numberOfText_of_numeralText hv, ← hx, if_pos hnan]
  · next hnan =>
    obtain ⟨v, hv, hx⟩ := numeralText_of_ofText? (ofText?_display_self (Bool.eq_false_iff.2 hnan))
    rw [numberOfText_of_numeralText hv, ← hx]

/-- **The text view of a number loses nothing.** A number converted to text and back is an equal
number, with the same bits unless it is a NaN, whatever white space is put around the text. So
numbers with one text have the same bits, unless they are NaNs. -/
theorem text_view_loses_nothing :
    (∀ x : Single, ∃ t, (Value.number x).convertTo .string = .ok (.string t) ∧
      ∀ front back : String, AllBlank front.toList → AllBlank back.toList →
        ∃ y, (Value.string (front ++ t ++ back)).convertTo .number = .ok (.number y) ∧
          (Value.number y).equal (.number x) = true ∧
          (x.isNaN = false → y.toBits = x.toBits)) ∧
    ∀ x y : Single, x.isNaN = false → y.isNaN = false →
      (Value.number x).textView = (Value.number y).textView → x.toBits = y.toBits := by
  constructor
  · intro x
    refine ⟨displayLayout.text x, rfl, fun front back hf hb => ?_⟩
    refine ⟨_, congrArg (fun y => Except.ok (Value.number y)) (numberOfText_display hf hb), ?_⟩
    cases hx : x.isNaN with
    | true =>
      refine ⟨sameNumber_iff.2 (.inr (.inr ⟨?_, hx⟩)), nofun⟩
      simp
    | false => exact ⟨equal_self _, fun _ => rfl⟩
  · intro x y hx hy h
    have htext : displayLayout.text x = displayLayout.text y := Except.ok.inj h
    have hread := (ofText?_display_self hx).symm.trans (htext ▸ ofText?_display_self hy)
    rw [Option.some.inj hread]

/-- Negative zero comes back as negative zero, also from between a line break and a wide space. -/
theorem text_view_of_negative_zero :
    ∃ y, (Value.string ("\n" ++ "-0" ++ "\u3000")).convertTo .number = .ok (.number y) ∧
      y.toBits = 0x80000000 := by
  obtain ⟨t, ht, hread⟩ := text_view_loses_nothing.1 (.ofBits .single 0x80000000)
  have htext : (Value.number (.ofBits .single 0x80000000)).convertTo .string =
      .ok (.string "-0") := by
    decide +kernel
  obtain rfl : t = "-0" := Value.string.inj (Except.ok.inj (ht.symm.trans htext))
  obtain ⟨y, hy, -, hbits⟩ := hread "\n" "\u3000" (by decide +kernel) (by decide +kernel)
  exact ⟨y, hy, hbits (by decide +kernel)⟩

end Value

end ScriptCell
