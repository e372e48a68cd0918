import ScriptCell.Line.Operand
import ScriptCell.Proofs.Value.View

/-!
# Number words

A word is a number operand exactly if it is number text (`readOperand_eq_number_iff`); the keywords,
the dollar sign and the quotes are out of its way. The operand is read with 64 bits and then
narrowed, the number view of the same text with 32 bits at once. The two agree but for false ties,
where the operand is the even one of the two neighbours and the view the odd one
(`operand_and_view_of_number_text`). So a number that is shown and typed in again comes back, but
for false ties at its own shortest decimal (`operand_of_shown_number`). Both exceptions occur
(`operand_differs_from_view`, `shown_number_not_read_back`).
-/

namespace ScriptCell

/-! ## Which words are numbers -/

/-- The keywords are no number text. -/
theorem keywords_lookup_of_numeralText {w : String} {v : Numeral} (h : NumeralText w.toList v) :
    keywords.lookup w = none := by
  have hkeywords : ∀ p ∈ keywords, Numeral.ofChars? p.1.toList = none := by decide
  rw [List.lookup_eq_none_iff]
  intro p hp
  rw [bne_iff_ne]
  rintro rfl
  have hnone := hkeywords p hp
  rw [Numeral.ofChars?_eq_some_iff.2 h] at hnone
  cases hnone

/-- Number text does not stand between quotes. -/
theorem unquote?_of_numeralText {cs : List Char} {v : Numeral} (h : NumeralText cs v) :
    unquote? cs = none := by
  cases cs with
  | nil => rfl
  | cons c cs =>
    refine if_neg fun hq => ?_
    have hc := h.inNumeralRange c (.head _)
    have hquote : c = '"' ∨ c = '\'' := by simpa [isQuote] using hq.1
    rcases hquote with rfl | rfl <;> exact absurd hc (by decide)

/-- A word that is number text is read with 64 bits and then narrowed. -/
theorem readOperand_of_numeralText {w : String} {v : Numeral} (h : NumeralText w.toList v) :
    readOperand w = .number ((Binary.ofNumeral .double v).convert .single) := by
  have hplain : readPlainOperand w = .number ((Binary.ofNumeral .double v).convert .single) := by
    rw [readPlainOperand, unquote?_of_numeralText h]
    simp only [ofText?_of_numeralText .double h]
    rfl
  rw [readOperand, keywords_lookup_of_numeralText h]
  simp only
  split
  · next name hw =>
    have hdollar := h.inNumeralRange '$' (hw ▸ .head _)
    exact absurd hdollar (by decide)
  · exact hplain

/-- **Number operands are number text.** -/
theorem readOperand_eq_number_iff {w : String} {n : Single} :
    readOperand w = .number n ↔
      ∃ v, NumeralText w.toList v ∧ n = (Binary.ofNumeral .double v).convert .single := by
  constructor
  · intro h
    unfold readOperand at h
    split at h
    · next v hv =>
      -- no keyword stands for a number
      subst h
      obtain ⟨l₁, l₂, hl, -⟩ := List.lookup_eq_some_iff.1 hv
      have hkinds : ∀ p ∈ keywords, p.2.kind ≠ .number := by decide
      exact absurd rfl (hkinds (w, .number n) (hl ▸ List.mem_append_right _ (.head _)))
    · split at h
      · cases h
      · unfold readPlainOperand at h
        split at h
        · cases h
        · split at h
          · next x hx =>
            obtain ⟨v, hv, rfl⟩ := numeralText_of_ofText? hx
            exact ⟨v, hv, (Value.number.inj h).symm⟩
          · cases h
  · rintro ⟨v, hv, rfl⟩
    exact readOperand_of_numeralText hv

/-! ## Two readings of one text -/

/-- Read with 64 bits, the decimal lies halfway between the patterns `k` and `k + 1` of 32 bits,
while it is itself on the side of the odd one. -/
def Decimal.FalseTie (d : Decimal) (k : Nat) : Prop :=
  Binary.FalseTie .single d.magnitude (Binary.ofDecimal .double d) k

/-- Narrowing a numeral gives the numeral of the narrow format, but for false ties of a decimal. -/
theorem convert_ofNumeral_eq_iff (v : Numeral) :
    (Binary.ofNumeral .double v).convert .single = .ofNumeral .single v ↔
      ∀ d k, v = .decimal d → ¬ d.FalseTie k := by
  cases v with
  | decimal d =>
    rw [Binary.ofNumeral, Binary.ofNumeral,
      Binary.convert_ofDecimal_eq_iff Format.double_wider_single]
    exact ⟨fun h d' k hd => Numeral.decimal.inj hd ▸ h k, fun h k => h d k rfl⟩
  | infinity neg => exact iff_of_true (Binary.convert_infinity _ neg) (by simp)
  | nan neg => exact iff_of_true (Binary.convert_nan _ neg) (by simp)

/-- The sign of a numeral does not depend on the format. -/
theorem neg_ofNumeral (f g : Format) (v : Numeral) :
    (Binary.ofNumeral f v).neg = (Binary.ofNumeral g v).neg := by
  cases v with
  | decimal d => simp [Binary.ofNumeral]
  | infinity neg | nan neg => rfl

/-- Whether a numeral is a NaN does not depend on the format. -/
theorem isNaN_ofNumeral (f g : Format) (v : Numeral) :
    (Binary.ofNumeral f v).isNaN = (Binary.ofNumeral g v).isNaN := by
  cases v <;> simp [Binary.ofNumeral]

/-- **A number word and the number view of its text.** A word is a number operand exactly if it is
read as a number of 32 bits, and the view of its text is that number. Operand and view have the same
sign and are both NaN or both not. They are the same number unless the word is a decimal that 64
bits put onto a false tie; there the operand is the even neighbour and the view the odd one. -/
theorem operand_and_view_of_number_text (w : String) :
    ((∃ n, readOperand w = .number n) ↔ ∃ m, Binary.ofText? .single w = some m) ∧
    ∀ n m, readOperand w = .number n → Binary.ofText? .single w = some m →
      (Value.string w).numberView = .ok m ∧ n.neg = m.neg ∧ n.isNaN = m.isNaN ∧
      (n = m ↔ ∀ d k, NumeralText w.toList (.decimal d) → ¬ d.FalseTie k) ∧
      ∀ d k, NumeralText w.toList (.decimal d) → d.FalseTie k →
        n.mag = k + k % 2 ∧ m.mag = k + (k + 1) % 2 := by
  constructor
  · constructor
    · rintro ⟨n, hn⟩
      obtain ⟨v, hv, -⟩ := readOperand_eq_number_iff.1 hn
      exact ⟨_, ofText?_of_numeralText .single hv⟩
    · rintro ⟨m, hm⟩
      obtain ⟨v, hv, -⟩ := numeralText_of_ofText? hm
      exact ⟨_, readOperand_of_numeralText hv⟩
  · intro n m hn hm
    obtain ⟨v, hv, rfl⟩ := readOperand_eq_number_iff.1 hn
    obtain ⟨v', hv', rfl⟩ := numeralText_of_ofText? hm
    obtain rfl := hv.unique hv'
    have hview : (Value.string w).numberView = .ok (.ofNumeral .single v) :=
      congrArg Except.ok (numberOfText_of_numeralText hv)
    refine ⟨hview, ?_, ?_, ?_, ?_⟩
    · rw [Binary.neg_convert, neg_ofNumeral]
    · rw [Binary.isNaN_convert, isNaN_ofNumeral]
    · rw [convert_ofNumeral_eq_iff]
      exact ⟨fun h d k hd => h d k (hv.unique hd), fun h d k hd => h d k (hd ▸ hv)⟩
    · intro d k hd ht
      obtain rfl := hv.unique hd
      exact Binary.mag_ofDecimal_of_falseTie Format.double_wider_single ht

/-- False ties occur: the text of a number just above a midpoint is one. -/
theorem exists_falseTie_of_number_text :
    ∃ d k, NumeralText "1.00000005960464485".toList (.decimal d) ∧ d.FalseTie k := by
  obtain ⟨hiff, hread⟩ := operand_and_view_of_number_text "1.00000005960464485"
  have hn : readOperand "1.00000005960464485" = .number (.ofBits .single 0x3f800000) := by
    decide +kernel
  have hm : Binary.ofText? .single "1.00000005960464485" = some (.ofBits .single 0x3f800001) := by
    decide +kernel
  obtain ⟨-, -, -, htie, -⟩ := hread _ _ hn hm
  have hne : Binary.ofBits .single 0x3f800000 ≠ .ofBits .single 0x3f800001 := by decide +kernel
  simpa using fun h => hne (htie.2 h)

/-- Two readings that differ: with 64 bits the text is halfway between one and the next number of 32
bits, in truth it lies above. -/
theorem operand_differs_from_view :
    readOperand "1.00000005960464485" = .number (.ofBits .single 0x3f800000) ∧
      (Value.string "1.00000005960464485").numberView = .ok (.ofBits .single 0x3f800001) := by
  decide +kernel

/-! ## Shown numbers -/

/-- What a shown number is when it is typed in. -/
theorem readOperand_literal (x : Single) :
    readOperand (Value.number x).literal =
      .number (if x.isNaN then .nan .single false
        else if x.isInfinite then x
        else (Binary.ofDecimal .double (x.shortest .up)).convert .single) := by
  obtain ⟨v, hv, hx⟩ := numeralText_of_ofText? (ofText?_display .double x)
  refine (readOperand_of_numeralText hv).trans ?_
  rw [← hx]
  split
  · rw [Binary.convert_nan]
  · split
    · next hinf => rw [Binary.convert_infinity, Binary.infinity_neg_eq hinf]
    · rfl

/-- **A shown number that is typed in.** It is a number operand again: a NaN for a NaN and the same
infinity for an infinity. A finite number comes back unless its shortest decimal is put onto a false
tie by 64 bits; then its pattern is odd, and the even neighbour with the same sign comes back. So
every number with an even pattern comes back. -/
theorem operand_of_shown_number (x : Single) :
    ∃ y, readOperand (Value.number x).literal = .number y ∧
      (x.isFinite = false → (Value.number y).equal (.number x) = true ∧ (x.isNaN = false → y = x)) ∧
      (x.isFinite = true →
        (y = x ↔ ∀ k, ¬ (x.shortest .up).FalseTie k) ∧
        (x.mag % 2 = 0 → y = x) ∧
        ∀ k, (x.shortest .up).FalseTie k →
          y.neg = x.neg ∧ y.mag = k + k % 2 ∧ x.mag = k + (k + 1) % 2) := by
  refine ⟨_, readOperand_literal x, fun hfin => ?_, fun hfin => ?_⟩
  · cases hnan : x.isNaN with
    | true => exact ⟨Value.sameNumber_iff.2 (.inr (.inr ⟨by simp, hnan⟩)), nofun⟩
    | false =>
      have hinf : x.isInfinite = true := by
        by_contra hinf
        exact Bool.false_ne_true
          (hfin.symm.trans (Binary.isFinite_iff.2 ⟨hnan, by simpa using hinf⟩))
      simp [hinf, Value.equal_self]
  · obtain ⟨hnan, hinf⟩ := Binary.isFinite_iff.1 hfin
    have hself := Binary.ofDecimal_shortest .up hfin
    have htie (k : Nat) (ht : (x.shortest .up).FalseTie k) :=
      hself ▸ Binary.mag_ofDecimal_of_falseTie Format.double_wider_single ht
    have hiff := Binary.convert_ofDecimal_eq_iff Format.double_wider_single (x.shortest .up)
    rw [hself] at hiff
    rw [hnan, hinf]
    refine ⟨hiff, fun heven => hiff.2 fun k ht => ?_, fun k ht => ⟨by simp, htie k ht⟩⟩
    have := (htie k ht).2
    omega

/-- False ties occur at the shortest decimal of a number. -/
theorem exists_falseTie_of_shown_number :
    ∃ k, ((Binary.ofBits .single 0x15ae43fd).shortest .up).FalseTie k := by
  obtain ⟨y, hy, -, hfinite⟩ := operand_of_shown_number (.ofBits .single 0x15ae43fd)
  have hread : readOperand (Value.number (.ofBits .single 0x15ae43fd)).literal =
      .number (.ofBits .single 0x15ae43fe) := by decide +kernel
  have hne : Binary.ofBits .single 0x15ae43fe ≠ .ofBits .single 0x15ae43fd := by decide +kernel
  obtain rfl := Value.number.inj (hread.symm.trans hy)
  obtain ⟨htie, -⟩ := hfinite (by decide +kernel)
  simpa using fun h => hne (htie.2 h)

/-- A finite number that does not come back: its text, read with 64 bits, is halfway between the
number and the next one. -/
theorem shown_number_not_read_back :
    readOperand (Value.number (.ofBits .single 0x15ae43fd)).literal =
      .number (.ofBits .single 0x15ae43fe) := by
  decide +kernel

end ScriptCell
