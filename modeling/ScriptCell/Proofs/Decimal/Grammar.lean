import ScriptCell.Decimal.Literal
import ScriptCell.Proofs.Text.Blank

/-!
# The grammar of number text

`NumeralText cs v` says that the characters `cs` spell the numeral `v`: a sign, then digits with an
optional point and an optional exponent, or one of the words. The reader accepts exactly the texts
of this grammar (`Numeral.ofChars?_eq_some_iff`), so a text spells at most one numeral. No white
space, quote or dollar sign occurs in such a text (`NumeralText.inNumeralRange`).
-/

namespace ScriptCell

/-! ## The grammar -/

/-- Digits and nothing else. -/
def IsDigits (cs : List Char) : Prop := ∀ c ∈ cs, c.isDigit = true

/-- An optional sign, and whether it is a minus. -/
inductive SignText : List Char → Bool → Prop
  | none : SignText [] false
  | plus : SignText ['+'] false
  | minus : SignText ['-'] true

/-- An optional point with digits behind it, and these digits. -/
inductive PointText : List Char → List Char → Prop
  | none : PointText [] []
  | some {ds : List Char} (hd : IsDigits ds) : PointText ('.' :: ds) ds

/-- An optional exponent, and its value. -/
inductive ExponentText : List Char → Int → Prop
  | none : ExponentText [] 0
  | some {e : Char} {sign ds : List Char} {neg : Bool} (he : e = 'e' ∨ e = 'E')
      (hs : SignText sign neg) (hd : IsDigits ds) (hne : ds ≠ []) :
      ExponentText (e :: (sign ++ ds))
        (if neg then -(Nat.ofDigitChars 10 ds 0 : Int) else Nat.ofDigitChars 10 ds 0)

/-- An unsigned decimal with at least one digit, read with the sign `neg`. -/
inductive DecimalText (neg : Bool) : List Char → Decimal → Prop
  | mk {whole point fraction tail : List Char} {e : Int} (hw : IsDigits whole)
      (hp : PointText point fraction) (hne : whole ++ fraction ≠ []) (he : ExponentText tail e) :
      DecimalText neg (whole ++ (point ++ tail))
        ⟨neg, Nat.ofDigitChars 10 (whole ++ fraction) 0, e - fraction.length⟩

/-- One of the words in any letter case, read with the sign `neg`. -/
inductive WordText (neg : Bool) : List Char → Numeral → Prop
  | infinity {cs : List Char}
      (h : cs.map Char.toLower = "inf".toList ∨ cs.map Char.toLower = "infinity".toList) :
      WordText neg cs (.infinity neg)
  | nan {cs : List Char} (h : cs.map Char.toLower = "nan".toList) : WordText neg cs (.nan neg)

/-- Number text, and the numeral that it spells. -/
inductive NumeralText : List Char → Numeral → Prop
  | decimal {sign body : List Char} {neg : Bool} {d : Decimal} (hs : SignText sign neg)
      (hb : DecimalText neg body d) : NumeralText (sign ++ body) (.decimal d)
  | word {sign body : List Char} {neg : Bool} {v : Numeral} (hs : SignText sign neg)
      (hb : WordText neg body v) : NumeralText (sign ++ body) v

/-! ## Splitting -/

variable {cs ds rest sign point fraction body : List Char} {neg : Bool}

/-- The characters in front of which a run of digits ends. -/
def EndsDigits (cs : List Char) : Prop := ∀ c ∈ cs.head?, c.isDigit = false

theorem ExponentText.endsDigits {e : Int} (h : ExponentText cs e) : EndsDigits cs := by
  cases h with
  | none => exact fun _ hc => nomatch hc
  | some he =>
    intro c hc
    obtain rfl : _ = c := Option.some.inj hc
    rcases he with rfl | rfl <;> rfl

theorem PointText.endsDigits (h : PointText point fraction) (hr : EndsDigits rest) :
    EndsDigits (point ++ rest) := by
  cases h with
  | none => exact hr
  | some =>
    intro c hc
    obtain rfl : '.' = c := Option.some.inj hc
    rfl

namespace Numeral

theorem splitDigits_append (hd : IsDigits ds) (hr : EndsDigits rest) :
    splitDigits (ds ++ rest) = (ds, rest) := by
  have htake : rest.takeWhile Char.isDigit = [] := by
    cases rest with
    | nil => rfl
    | cons c cs => exact List.takeWhile_cons_of_neg (by simp [hr c rfl])
  have hdrop : rest.dropWhile Char.isDigit = rest := by
    cases rest with
    | nil => rfl
    | cons c cs => exact List.dropWhile_cons_of_neg (by simp [hr c rfl])
  rw [splitDigits, List.takeWhile_append_of_pos hd, List.dropWhile_append_of_pos hd, htake, hdrop,
    List.append_nil]

/-- A run of digits is split off in front. -/
theorem exists_splitDigits (cs : List Char) :
    ∃ ds rest, splitDigits cs = (ds, rest) ∧ IsDigits ds ∧ cs = ds ++ rest :=
  ⟨_, _, rfl, List.all_eq_true.1 List.all_takeWhile, List.takeWhile_append_dropWhile.symm⟩

theorem splitFraction_append (hp : PointText point fraction) {e : Int} (hr : ExponentText rest e) :
    splitFraction (point ++ rest) = (fraction, rest) := by
  cases hp with
  | none =>
    cases hr with
    | none => rfl
    | some he => rcases he with rfl | rfl <;> rfl
  | some hd => exact splitDigits_append hd hr.endsDigits

/-- The digits behind a point are split off in front. -/
theorem exists_splitFraction (cs : List Char) :
    ∃ point fraction rest,
      splitFraction cs = (fraction, rest) ∧ PointText point fraction ∧ cs = point ++ rest := by
  unfold splitFraction
  split
  · next cs =>
    obtain ⟨ds, rest, hsplit, hd, rfl⟩ := exists_splitDigits cs
    exact ⟨_, _, _, hsplit, .some hd, rfl⟩
  · exact ⟨[], [], cs, rfl, .none, rfl⟩

theorem splitSign_append (hs : SignText sign neg) (hb : ∀ c ∈ body.head?, c ≠ '-' ∧ c ≠ '+') :
    splitSign (sign ++ body) = (neg, body) := by
  cases hs with
  | plus | minus => rfl
  | none =>
    cases body with
    | nil => rfl
    | cons c cs =>
      obtain ⟨hminus, hplus⟩ := hb c rfl
      unfold splitSign
      split
      · next h => exact absurd (List.cons.inj h).1 hminus
      · next h => exact absurd (List.cons.inj h).1 hplus
      · rfl

/-- A sign is split off in front. -/
theorem exists_splitSign (cs : List Char) :
    ∃ sign neg body, splitSign cs = (neg, body) ∧ SignText sign neg ∧ cs = sign ++ body := by
  unfold splitSign
  split
  · next cs => exact ⟨['-'], true, cs, rfl, .minus, rfl⟩
  · next cs => exact ⟨['+'], false, cs, rfl, .plus, rfl⟩
  · exact ⟨[], false, cs, rfl, .none, rfl⟩

/-! ## Reading is the grammar -/

/-- A digit is no sign. -/
theorem not_sign_of_isDigit {c : Char} (h : c.isDigit = true) : c ≠ '-' ∧ c ≠ '+' := by
  constructor <;> rintro rfl <;> cases h

theorem exponent?_eq_some_iff {e : Int} : exponent? cs = some e ↔ ExponentText cs e := by
  constructor
  · intro h
    cases cs with
    | nil =>
      cases h
      exact .none
    | cons c cs =>
      obtain ⟨sign, neg, ds, hsplit, hs, rfl⟩ := exists_splitSign cs
      simp only [exponent?, hsplit] at h
      split at h
      · next hc =>
        cases h
        exact .some hc.1 hs (List.all_eq_true.1 hc.2.2) hc.2.1
      · cases h
  · intro h
    cases h with
    | none => rfl
    | @some c sign ds neg he hs hd hne =>
      have hsplit : splitSign (sign ++ ds) = (neg, ds) := by
        refine splitSign_append hs fun d hmem => not_sign_of_isDigit (hd d ?_)
        exact List.mem_of_mem_head? hmem
      simp only [exponent?, hsplit]
      exact if_pos ⟨he, hne, List.all_eq_true.2 hd⟩

theorem decimal?_eq_some_iff {d : Decimal} : decimal? neg cs = some d ↔ DecimalText neg cs d := by
  constructor
  · intro h
    obtain ⟨whole, rest, hwhole, hw, rfl⟩ := exists_splitDigits cs
    obtain ⟨point, fraction, tail, hpoint, hp, rfl⟩ := exists_splitFraction rest
    simp only [decimal?, hwhole, hpoint] at h
    split at h
    · cases h
    · next hne =>
      obtain ⟨e, he, rfl⟩ := Option.map_eq_some_iff.1 h
      exact .mk hw hp hne (exponent?_eq_some_iff.1 he)
  · intro h
    cases h with
    | mk hw hp hne he =>
      simp only [decimal?, splitDigits_append hw (hp.endsDigits he.endsDigits),
        splitFraction_append hp he, if_neg hne, exponent?_eq_some_iff.2 he]
      rfl

theorem word?_eq_some_iff {v : Numeral} : word? neg cs = some v ↔ WordText neg cs v := by
  have hinf : "inf".toList = ['i', 'n', 'f'] := by decide
  have hinfinity : "infinity".toList = ['i', 'n', 'f', 'i', 'n', 'i', 't', 'y'] := by decide
  have hnan : "nan".toList = ['n', 'a', 'n'] := by decide
  constructor
  · intro h
    unfold word? at h
    simp only at h
    split at h
    · next hw =>
      cases h
      exact .infinity (by rwa [hinf, hinfinity])
    · split at h
      · next hw =>
        cases h
        exact .nan (by rwa [hnan])
      · cases h
  · intro h
    unfold word?
    cases h with
    | infinity h =>
      rw [hinf, hinfinity] at h
      exact if_pos h
    | nan h =>
      rw [hnan] at h
      simp only [h]
      rfl

end Numeral

/-! ## The characters of number text -/

/-- The range of the characters from `+` to `z`, in which all characters of number text lie. -/
def InNumeralRange (c : Char) : Prop := 43 ≤ c.toNat ∧ c.toNat ≤ 122

instance (c : Char) : Decidable (InNumeralRange c) := inferInstanceAs (Decidable (_ ∧ _))

/-- White space lies outside the range. -/
theorem InNumeralRange.isBlank {c : Char} (h : InNumeralRange c) : isBlank c = false := by
  rw [Bool.eq_false_iff]
  intro hc
  obtain ⟨r, hr, hlow, hhigh⟩ := (CharRanges.contains_iff _ _).1 hc
  have hranges : ∀ r ∈ blankRanges, r.2 < 43 ∨ 122 < r.1 := by decide
  have := hranges r hr
  obtain ⟨h1, h2⟩ := h
  omega

theorem toNat_of_isDigit {c : Char} (h : c.isDigit = true) : 48 ≤ c.toNat ∧ c.toNat ≤ 57 :=
  Char.isDigit_iff_toNat.1 h

theorem inNumeralRange_of_isDigit {c : Char} (h : c.isDigit = true) : InNumeralRange c := by
  have := toNat_of_isDigit h
  constructor <;> omega

/-- A character that is no capital is its own lower case. -/
theorem toLower_of_not_capital {c : Char} (h : ¬ (c.val ≥ 'A'.val ∧ c.val ≤ 'Z'.val)) :
    c.toLower = c := dif_neg h

/-- A letter of either case lies in the range. -/
theorem inNumeralRange_of_toLower {c : Char} (h : 97 ≤ c.toLower.toNat ∧ c.toLower.toNat ≤ 122) :
    InNumeralRange c := by
  by_cases hc : c.val ≥ 'A'.val ∧ c.val ≤ 'Z'.val
  · have h1 : 65 ≤ c.toNat := hc.1
    have h2 : c.toNat ≤ 90 := hc.2
    constructor <;> omega
  · rw [toLower_of_not_capital hc] at h
    constructor <;> omega

theorem IsDigits.inNumeralRange (hd : IsDigits ds) : ∀ c ∈ ds, InNumeralRange c :=
  fun c hc => inNumeralRange_of_isDigit (hd c hc)

theorem SignText.inNumeralRange (hs : SignText sign neg) : ∀ c ∈ sign, InNumeralRange c := by
  cases hs with
  | none => nofun
  | plus | minus => exact List.forall_mem_singleton.2 (by decide)

theorem PointText.inNumeralRange (hp : PointText point fraction) :
    ∀ c ∈ point, InNumeralRange c := by
  cases hp with
  | none => nofun
  | some hd => exact List.forall_mem_cons.2 ⟨by decide, hd.inNumeralRange⟩

theorem ExponentText.inNumeralRange {e : Int} (he : ExponentText cs e) :
    ∀ c ∈ cs, InNumeralRange c := by
  cases he with
  | none => nofun
  | some he hs hd =>
    refine List.forall_mem_cons.2
      ⟨?_, List.forall_mem_append.2 ⟨hs.inNumeralRange, hd.inNumeralRange⟩⟩
    rcases he with rfl | rfl <;> decide

theorem DecimalText.inNumeralRange {d : Decimal} (h : DecimalText neg cs d) :
    ∀ c ∈ cs, InNumeralRange c := by
  cases h with
  | mk hw hp _ he =>
    exact List.forall_mem_append.2 ⟨hw.inNumeralRange,
      List.forall_mem_append.2 ⟨hp.inNumeralRange, he.inNumeralRange⟩⟩

/-- The words are made of letters. -/
theorem WordText.toLower {v : Numeral} (h : WordText neg cs v) :
    ∀ c ∈ cs, 97 ≤ c.toLower.toNat ∧ c.toLower.toNat ≤ 122 := by
  intro c hc
  have hmem : c.toLower ∈ cs.map Char.toLower := List.mem_map_of_mem hc
  -- asked of the list and not of all characters, of which there are too many to decide
  have hletters : ("inf".toList ++ ("infinity".toList ++ "nan".toList)).all
      (fun d => decide (97 ≤ d.toNat ∧ d.toNat ≤ 122)) = true := by decide
  refine of_decide_eq_true (List.all_eq_true.1 hletters _ ?_)
  simp only [List.mem_append]
  cases h with
  | infinity h =>
    rcases h with h | h <;> rw [h] at hmem
    · exact .inl hmem
    · exact .inr (.inl hmem)
  | nan h =>
    rw [h] at hmem
    exact .inr (.inr hmem)

theorem WordText.inNumeralRange {v : Numeral} (h : WordText neg cs v) :
    ∀ c ∈ cs, InNumeralRange c := fun c hc => inNumeralRange_of_toLower (h.toLower c hc)

/-- All characters of number text lie in the range. -/
theorem NumeralText.inNumeralRange {v : Numeral} (h : NumeralText cs v) :
    ∀ c ∈ cs, InNumeralRange c := by
  cases h with
  | decimal hs hb => exact List.forall_mem_append.2 ⟨hs.inNumeralRange, hb.inNumeralRange⟩
  | word hs hb => exact List.forall_mem_append.2 ⟨hs.inNumeralRange, hb.inNumeralRange⟩

/-! ## Number text is read -/

/-- A decimal begins with a digit or a point. -/
theorem DecimalText.exists_cons {d : Decimal} (h : DecimalText neg body d) :
    ∃ c cs, body = c :: cs ∧ (c.isDigit = true ∨ c = '.') := by
  cases h with
  | @mk whole point fraction tail e hw hp hne he =>
    cases whole with
    | cons c cs => exact ⟨c, _, rfl, .inl (hw c (.head _))⟩
    | nil =>
      cases hp with
      | none => exact absurd rfl hne
      | some => exact ⟨'.', _, rfl, .inr rfl⟩

/-- A decimal does not begin with a sign. -/
theorem DecimalText.head_ne_sign {d : Decimal} (h : DecimalText neg body d) :
    ∀ c ∈ body.head?, c ≠ '-' ∧ c ≠ '+' := by
  obtain ⟨c, cs, rfl, hc⟩ := h.exists_cons
  intro c' hc'
  obtain rfl : c = c' := Option.some.inj hc'
  rcases hc with hc | rfl
  · exact Numeral.not_sign_of_isDigit hc
  · decide

/-- A word does not begin with a sign. -/
theorem WordText.head_ne_sign {v : Numeral} (h : WordText neg body v) :
    ∀ c ∈ body.head?, c ≠ '-' ∧ c ≠ '+' := by
  intro c hc
  have hletter := h.toLower c (List.mem_of_mem_head? hc)
  constructor <;> rintro rfl <;> exact absurd hletter (by decide)

/-- A word is no decimal. -/
theorem WordText.decimal?_eq_none {v : Numeral} (h : WordText neg body v) :
    Numeral.decimal? neg body = none := by
  rw [Option.eq_none_iff_forall_ne_some]
  intro d hd
  obtain ⟨c, cs, rfl, hc⟩ := (Numeral.decimal?_eq_some_iff.1 hd).exists_cons
  have hletter := h.toLower c (.head _)
  have hlt : c.toNat < 65 := by
    rcases hc with hc | rfl
    · have := toNat_of_isDigit hc
      omega
    · decide
  rw [toLower_of_not_capital fun hc => absurd hlt (Nat.not_lt.2 hc.1)] at hletter
  omega

namespace Numeral

/-- **Reading accepts exactly the grammar of number text.** -/
theorem ofChars?_eq_some_iff {v : Numeral} : ofChars? cs = some v ↔ NumeralText cs v := by
  constructor
  · intro h
    obtain ⟨sign, neg, body, hsplit, hs, rfl⟩ := exists_splitSign cs
    simp only [ofChars?, hsplit] at h
    split at h
    · next d hd =>
      cases h
      exact .decimal hs (decimal?_eq_some_iff.1 hd)
    · exact .word hs (word?_eq_some_iff.1 h)
  · intro h
    cases h with
    | decimal hs hb =>
      simp only [ofChars?, splitSign_append hs hb.head_ne_sign, decimal?_eq_some_iff.2 hb]
    | word hs hb =>
      simp only [ofChars?, splitSign_append hs hb.head_ne_sign, hb.decimal?_eq_none]
      exact word?_eq_some_iff.2 hb

end Numeral

/-- A text spells at most one numeral. -/
theorem NumeralText.unique {v v' : Numeral} (h : NumeralText cs v) (h' : NumeralText cs v') :
    v = v' :=
  Option.some.inj
    ((Numeral.ofChars?_eq_some_iff.2 h).symm.trans (Numeral.ofChars?_eq_some_iff.2 h'))

/-- Trimming takes nothing away from number text. -/
theorem NumeralText.trimChars_eq {v : Numeral} (h : NumeralText cs v) : trimChars cs = cs :=
  trimChars_of_not_blank fun c hc => (h.inNumeralRange c hc).isBlank

end ScriptCell
