import ScriptCell.Timing.Json
import ScriptCell.Proofs.Decimal.Layout
import ScriptCell.Proofs.Json.Reader

/-!
# Written JSON is JSON

What `JsonValue.write` writes, at any level, is a value of the grammar of JSON, and a reader gets
out of it what went in (`JsonValue.exists_partText_write`): texts to the character, counts as whole
numbers, a finite number as a decimal that reads as it, a number that is not finite as null, items
and fields in their order.
-/

namespace ScriptCell

open Json

/-! ## Numbers -/

/-- Only zero is written with a zero in front. -/
theorem exists_toDigits_eq_cons {n : Nat} (hn : n ≠ 0) :
    ∃ c cs, Nat.toDigits 10 n = c :: cs ∧ c ≠ '0' := by
  induction n using Nat.strong_induction_on with
  | h n ih =>
    by_cases hlt : n < 10
    · have hall : ∀ n < 10, n ≠ 0 → Nat.digitChar n ≠ '0' := by decide
      exact ⟨_, [], Nat.toDigits_of_lt_base hlt, hall n hlt hn⟩
    · obtain ⟨c, cs, hdigits, hc⟩ := ih (n / 10) (by omega) (by omega)
      rw [Nat.toDigits_of_base_le (by decide) (Nat.le_of_not_lt hlt), hdigits]
      exact ⟨c, _, rfl, hc⟩

/-- Digits of a number may stand in front of a point, with more digits behind them if it is not
zero. -/
theorem wholeText_toDigits_append {n : Nat} {ds : List Char} (hds : IsDigits ds)
    (h : n = 0 → ds = []) :
    WholeText (Nat.toDigits 10 n ++ ds) := by
  by_cases hn : n = 0
  · rw [hn, h hn]
    exact .zero
  · have hall := isDigits_append.2 ⟨isDigits_toDigits n, hds⟩
    obtain ⟨c, cs, hdigits, hc⟩ := exists_toDigits_eq_cons hn
    rw [hdigits] at hall ⊢
    exact .digits hc hall

/-- A count is written as a number. -/
theorem numberText_toDigits (n : Nat) : NumberText (Nat.toDigits 10 n) ⟨false, n, 0⟩ := by
  have hw : WholeText (Nat.toDigits 10 n ++ []) := wholeText_toDigits_append nofun fun _ => rfl
  have h := NumberText.mk false hw .none nofun .none
  simpa [Nat.ofDigitChars_ten_toDigits] using h

/-- Characters that are a number, with and without a minus in front of them. -/
def IsUnsigned (cs : List Char) : Prop :=
  ∀ neg : Bool, ∃ d, NumberText ((if neg then ['-'] else []) ++ cs) d

variable {whole fraction tail : List Char} {e : Int}

theorem isUnsigned_whole (hw : WholeText whole) (he : ExponentText tail e) :
    IsUnsigned (whole ++ tail) :=
  fun neg => ⟨_, .mk neg hw .none nofun he⟩

theorem isUnsigned_point (hw : WholeText whole) (hf : IsDigits fraction) (hne : fraction ≠ [])
    (he : ExponentText tail e) : IsUnsigned (whole ++ '.' :: (fraction ++ tail)) :=
  fun neg => ⟨_, .mk neg hw (.some hf) (fun _ => hne) he⟩

namespace Layout

/-- Positional text is a number, unless it puts zeros behind a zero. -/
theorem isUnsigned_positionalChars (l : Layout) {n : Nat} {p : Int} (hp : n = 0 → p ≤ 0) :
    IsUnsigned (l.positionalChars (Nat.toDigits 10 n) p) := by
  have hds := isDigits_toDigits n
  unfold positionalChars
  simp only
  split
  · next hle =>
    have hw : WholeText (Nat.toDigits 10 n ++ List.replicate p.toNat '0') := by
      refine wholeText_toDigits_append (isDigits_zeros _) fun hn => ?_
      rw [Int.toNat_eq_zero.2 (hp hn)]
      rfl
    split
    · exact isUnsigned_point hw (isDigits_zeros 1) (List.cons_ne_nil _ _) .none
    · exact isUnsigned_whole hw .none
  split
  · next hlt =>
    -- there are two digits at least, so the first of them is not zero
    have hn : n ≠ 0 := by
      rintro rfl
      simp only [Nat.toDigits_zero, List.length_singleton] at hlt
      omega
    obtain ⟨c, cs, hdigits, hc⟩ := exists_toDigits_eq_cons hn
    rw [hdigits] at hds hlt ⊢
    obtain ⟨k, hk⟩ : ∃ k, (c :: cs).length - (-p).toNat = k + 1 :=
      ⟨(c :: cs).length - (-p).toNat - 1, by omega⟩
    have hparts := isDigits_append.1 ((List.take_append_drop (k + 1) (c :: cs)).symm ▸ hds)
    have hne : (c :: cs).drop (k + 1) ≠ [] := by
      rw [Ne, List.drop_eq_nil_iff]
      omega
    have h := isUnsigned_point (.digits hc hparts.1) hparts.2 hne .none
    rwa [List.append_nil, ← List.take_succ_cons, ← hk] at h
  · have hf : IsDigits (List.replicate ((-p).toNat - (Nat.toDigits 10 n).length) '0' ++
        Nat.toDigits 10 n) :=
      isDigits_append.2 ⟨isDigits_zeros _, hds⟩
    have h := isUnsigned_point .zero hf (by simp [Nat.toDigits_ne_nil]) .none
    rwa [List.append_nil] at h

/-- Text with an exponent is a number. -/
theorem isUnsigned_exponentialChars (l : Layout) (n : Nat) (lead : Int) :
    IsUnsigned (l.exponentialChars (Nat.toDigits 10 n) lead) := by
  have hds := isDigits_toDigits n
  have hne : Nat.toDigits 10 n ≠ [] := Nat.toDigits_ne_nil
  unfold exponentialChars
  simp only
  generalize Nat.toDigits 10 n = ds at hds hne
  have htail := exponentText_toDigits (l.signText_lead lead)
  rw [List.append_assoc, List.cons_append]
  match ds, hne with
  | [c], _ =>
    have hw : WholeText [c] := wholeText_iff.2 ⟨hds, rfl⟩
    exact isUnsigned_whole hw htail
  | c :: c' :: cs, _ =>
    have hparts := isDigits_append.1 (show IsDigits ([c] ++ c' :: cs) from hds)
    have hw : WholeText [c] := wholeText_iff.2 ⟨hparts.1, rfl⟩
    exact isUnsigned_point hw hparts.2 (List.cons_ne_nil _ _) htail

/-- A decimal is written as a number of the same sign and value, unless it is a zero with a positive
exponent. -/
theorem exists_numberText (l : Layout) {d : Decimal} (hd : d.digits = 0 → d.exponent ≤ 0) :
    ∃ d', NumberText (l.decimalChars d) d' ∧ d'.neg = d.neg ∧ d'.magnitude = d.magnitude := by
  have hbody : IsUnsigned (l.magnitudeChars d) := by
    unfold magnitudeChars
    simp only
    split
    · exact l.isUnsigned_positionalChars hd
    · exact l.isUnsigned_exponentialChars d.digits _
  obtain ⟨d', hnumber⟩ := hbody d.neg
  obtain ⟨d'', hnumeral, hvalue⟩ := l.exists_numeralText d
  obtain rfl : d' = d'' := by simpa using hnumber.numeralText.unique hnumeral
  exact ⟨d', hnumber, hvalue⟩

end Layout

/-- The shortest decimal of zero has no zeros behind it. -/
theorem Binary.exponent_shortest {f : Format} (tie : Tie) {x : Binary f} (hx : x.isFinite = true)
    (h : (x.shortest tie).digits = 0) : (x.shortest tie).exponent ≤ 0 := by
  have hread := ofDecimal_shortest tie hx
  have hzero : x.isZero = true := by
    rw [← hread, ofDecimal, if_pos (by simp [h])]
    rfl
  rw [shortest, if_pos hzero]

/-- **A finite number is written as a number that reads as it.** -/
theorem exists_numberText_text (l : Layout) {f : Format} {x : Binary f} (hx : x.isFinite = true) :
    ∃ d, NumberText (l.text x).toList d ∧ Binary.ofDecimal f d = x := by
  obtain ⟨hnan, hinf⟩ := Binary.isFinite_iff.1 hx
  obtain ⟨d, hd, hn, hm⟩ := l.exists_numberText (Binary.exponent_shortest l.tie hx)
  refine ⟨d, ?_, ?_⟩
  · simpa [Layout.text, hnan, hinf] using hd
  · rw [Binary.ofDecimal_congr hn hm, Binary.ofDecimal_shortest l.tie hx]

/-! ## Strings -/

/-- A control character is written as a code unit below 32. -/
theorem unit?_control {n : Nat} (hn : n < 0x20) :
    unit? '0' '0' (Nat.digitChar (n / 16)) (Nat.digitChar (n % 16)) = some n := by
  have hall : ∀ n < 0x20, unit? '0' '0' (Nat.digitChar (n / 16)) (Nat.digitChar (n % 16)) =
      some n := by decide
  exact hall n hn

namespace Timing

/-- A character is written as a character. -/
theorem charText_jsonChar (c : Char) : CharText (jsonChar c) c := by
  unfold jsonChar
  -- the seven escapes with a letter of their own
  iterate 7
    split
    · next h => exact .short (by rw [h]; decide)
  split
  · next hlt =>
    have h := CharText.unit (.mk (unit?_control hlt)) c.valid
    rwa [Char.ofNat_toNat] at h
  · next hquote hbackslash _ _ _ _ _ hge => exact .plain ⟨Nat.le_of_not_lt hge, hquote, hbackslash⟩

/-- Characters are written as a string. -/
theorem stringText_flatMap (cs : List Char) : StringText (cs.flatMap jsonChar ++ ['"']) cs := by
  induction cs with
  | nil => exact .close
  | cons c cs ih =>
    rw [List.flatMap_cons, List.append_assoc]
    exact .char (charText_jsonChar c) ih

theorem toList_jsonString (s : String) :
    (jsonString s).toList = '"' :: (s.toList.flatMap jsonChar ++ ['"']) := by
  rw [jsonString, String.toList_ofList]
  rfl

/-! ## Values -/

mutual

/-- What a reader of its text makes of a value. Which of the decimals that read as a number is
written, is left open. -/
inductive JsonValue.ReadAs : JsonValue → Json → Prop
  | null : ReadAs .null .null
  | count (n : Nat) : ReadAs (.count n) (.number ⟨false, n, 0⟩)
  | real {x : Double} {d : Decimal} (hx : x.isFinite = true) (hd : Binary.ofDecimal .double d = x) :
      ReadAs (.real x) (.number d)
  | notFinite {x : Double} (hx : x.isFinite = false) : ReadAs (.real x) .null
  | text (s : String) : ReadAs (.text s) (.text s)
  | array {vs : List JsonValue} {js : List Json} (h : ItemsReadAs vs js) :
      ReadAs (.array vs) (.array js)
  | object {fs : List (String × JsonValue)} {js : List (String × Json)} (h : FieldsReadAs fs js) :
      ReadAs (.object fs) (.object js)

/-- The same for items, in their order. -/
inductive JsonValue.ItemsReadAs : List JsonValue → List Json → Prop
  | nil : ItemsReadAs [] []
  | cons {v : JsonValue} {j : Json} {vs : List JsonValue} {js : List Json} (hv : v.ReadAs j)
      (h : ItemsReadAs vs js) : ItemsReadAs (v :: vs) (j :: js)

/-- The same for fields, under their names and in their order. -/
inductive JsonValue.FieldsReadAs : List (String × JsonValue) → List (String × Json) → Prop
  | nil : FieldsReadAs [] []
  | cons {k : String} {v : JsonValue} {j : Json} {fs : List (String × JsonValue)}
      {js : List (String × Json)} (hv : v.ReadAs j) (h : FieldsReadAs fs js) :
      FieldsReadAs ((k, v) :: fs) ((k, j) :: js)

end

namespace JsonValue

/-- Lines begin with white space. -/
theorem isSpace_newline (level : Nat) : IsSpace (newline level).toList := by
  intro c hc
  simp only [newline, String.toList_append, String.toList_ofList, List.mem_append,
    List.mem_replicate] at hc
  rcases hc with hc | ⟨-, rfl⟩
  · obtain rfl : c = '\n' := by simpa using hc
    rfl
  · rfl

/-- A name on a line of its own, with a colon and a space behind it. -/
theorem nameText_jsonString (level : Nat) (k : String) :
    NameText ((newline level).toList ++ ((jsonString k).toList ++ [':', ' '])) k := by
  have hspace : IsSpace [' '] := List.forall_mem_singleton.2 rfl
  have h := NameText.mk (isSpace_newline level) (stringText_flatMap k.toList) isSpace_nil hspace
  rw [String.ofList_toList] at h
  rw [toList_jsonString]
  exact h

mutual

/-- **What is written is a value of the grammar**, and what is read is what was written. -/
theorem exists_partText_write (level : Nat) (v : JsonValue) :
    ∃ j, v.ReadAs j ∧ PartText .value (v.write level).toList j := by
  match v with
  | .null => exact ⟨_, .null, .atom .null⟩
  | .count n =>
    refine ⟨_, .count n, .atom (.number ?_)⟩
    simpa [write] using numberText_toDigits n
  | .real x =>
    rw [write]
    cases hx : x.isFinite with
    | true =>
      obtain ⟨d, hd, hread⟩ := exists_numberText_text reportLayout hx
      exact ⟨_, .real hx hread, .atom (.number hd)⟩
    | false => exact ⟨_, .notFinite hx, .atom .null⟩
  | .text s =>
    have h := PartText.text (stringText_flatMap s.toList)
    rw [String.ofList_toList, ← toList_jsonString] at h
    exact ⟨_, .text s, h⟩
  | .array [] =>
    rw [write]
    exact ⟨_, .array .nil, .emptyArray isSpace_nil⟩
  | .array (v :: vs) =>
    obtain ⟨j, hj, hvalue⟩ := exists_partText_write (level + 1) v
    obtain ⟨js, hjs, hitems⟩ := exists_partText_writeItems (level + 1) vs
    refine ⟨_, .array (.cons hj hjs), ?_⟩
    have h := PartText.array (hitems (isSpace_newline (level + 1)) hvalue (isSpace_newline level))
    simpa [write] using h
  | .object [] =>
    rw [write]
    exact ⟨_, .object .nil, .emptyObject isSpace_nil⟩
  | .object ((k, v) :: fs) =>
    obtain ⟨j, hj, hvalue⟩ := exists_partText_write (level + 1) v
    obtain ⟨js, hjs, hfields⟩ := exists_partText_writeFields (level + 1) fs
    refine ⟨_, .object (.cons hj hjs), ?_⟩
    have h :=
      PartText.object (hfields (nameText_jsonString (level + 1) k) hvalue (isSpace_newline level))
    simpa [write] using h

/-- Items that are written behind one go on with its array. -/
theorem exists_partText_writeItems (level : Nat) (vs : List JsonValue) :
    ∃ js, ItemsReadAs vs js ∧ ∀ {front cs back : List Char} {j : Json},
      IsSpace front → PartText .value cs j → IsSpace back →
        PartText .items (front ++ (cs ++ ((writeItems level vs).toList ++ (back ++ [']']))))
          (j :: js) := by
  match vs with
  | [] => exact ⟨[], .nil, fun hf h hb => .lastItem hf h hb⟩
  | v :: vs =>
    obtain ⟨j, hj, hvalue⟩ := exists_partText_write level v
    obtain ⟨js, hjs, hitems⟩ := exists_partText_writeItems level vs
    refine ⟨j :: js, .cons hj hjs, fun hf h hb => ?_⟩
    have h := PartText.item hf h isSpace_nil (hitems (isSpace_newline level) hvalue hb)
    simpa [writeItems] using h

/-- Fields that are written behind one go on with its object. -/
theorem exists_partText_writeFields (level : Nat) (fs : List (String × JsonValue)) :
    ∃ js, FieldsReadAs fs js ∧ ∀ {name cs back : List Char} {k : String} {j : Json},
      NameText name k → PartText .value cs j → IsSpace back →
        PartText .fields (name ++ (cs ++ ((writeFields level fs).toList ++ (back ++ ['\x7d']))))
          ((k, j) :: js) := by
  match fs with
  | [] => exact ⟨[], .nil, fun hk h hb => .lastField hk h hb⟩
  | (k, v) :: fs =>
    obtain ⟨j, hj, hvalue⟩ := exists_partText_write level v
    obtain ⟨js, hjs, hfields⟩ := exists_partText_writeFields level fs
    refine ⟨(k, j) :: js, .cons hj hjs, fun hk h hb => ?_⟩
    have h := PartText.field hk h isSpace_nil (hfields (nameText_jsonString level k) hvalue hb)
    simpa [writeFields] using h

end

end JsonValue

end Timing

end ScriptCell
