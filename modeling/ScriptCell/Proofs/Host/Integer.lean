import ScriptCell.Proofs.Decimal.Whole
import ScriptCell.Proofs.Host
import ScriptCell.Proofs.Line.Operand
import ScriptCell.Proofs.Value.Interchange
import ScriptCell.Proofs.Value.PartialOrder

/-!
# Integers from the host

An integer of any type becomes the nearest number, which does not depend on the type and respects
the order (`Value.le_ofInt`). Only the largest numbers of `u128` are out of range
(`HostInt.overflow_le_iff`). Up to `2 ^ 24` nothing is rounded: different integers become different
numbers (`Value.equal_ofInt_eq_false`), and the text of the number is the numeral of the integer
(`Value.textView_ofInt`). A numeral is read as its integer is converted, as text whatever its size
and as an operand up to `2 ^ 53` (`Value.convertTo_numeral`, `readOperand_numeral`).
-/

namespace ScriptCell

variable {m n : Int}

/-- Of the integers of the host only those of `u128` reach the overflow threshold. -/
theorem HostInt.overflow_le_iff {t : IntType} (n : HostInt t) :
    Format.single.overflow ≤ |(n.1 : ℚ)| ↔ t = .u128 ∧ 2 ^ 128 - 2 ^ 103 ≤ n.1 := by
  obtain ⟨n, hlow, hhigh⟩ := n
  have hcast : Format.single.overflow ≤ |(n : ℚ)| ↔ (2 ^ 128 - 2 ^ 103 : Int) ≤ |n| := by
    rw [Format.overflow_single]
    exact_mod_cast Iff.rfl
  rw [hcast]
  cases t <;>
    simp [IntType.least, IntType.greatest, IntType.signed, IntType.bits, le_abs] at hlow hhigh ⊢ <;>
    omega

/-! ## Numbers of integers -/

namespace Binary

variable {f : Format} {x y : Binary f}

theorem isNaN_ofInt (f : Format) (n : Int) : (ofInt f n).isNaN = false := isNaN_ofRatio ..

/-- Larger integers become no smaller numbers. -/
theorem rank_ofInt_mono (f : Format) (h : m ≤ n) : (ofInt f m).rank ≤ (ofInt f n).rank := by
  rw [ofInt_eq_round, ofInt_eq_round]
  refine rank_round_mono f (Nat.cast_nonneg _) (Nat.cast_nonneg _) ?_
  rw [signed_natAbs, signed_natAbs]
  exact Int.cast_le.2 h

/-- Finite numbers that are one value are one rational number. -/
theorem Same.toRat_eq (h : x.Same y) (hx : x.isFinite = true) : x.toRat = y.toRat := by
  cases h with
  | refl => rfl
  | zeros hx hy =>
    rw [toRat_eq_toUnits, toRat_eq_toUnits, toUnits_of_isZero hx, toUnits_of_isZero hy]
  | nans hnan => exact absurd (hnan.symm.trans (isFinite_iff.1 hx).1) (by decide)

end Binary

/-! ## Values of integers -/

namespace Value

theorem ofNative_int (t : IntType) (n : HostInt t) : ofNative (.int t) n = .ok (ofInt n.1) :=
  ofNative_eq_ofHost (HostType.mem_natives_iff.2 (.inl (HostType.int_mem_scalars t))) rfl n

/-- The order of integers is that of their values. -/
theorem le_ofInt (h : m ≤ n) : OrderOp.le.apply (ofInt m) (ofInt n) = .ok true :=
  OrderOp.apply_eq_true_iff.2 ⟨.inr ⟨rfl, nofun⟩, _, _, rfl, rfl, Binary.isNaN_ofInt _ _,
    Binary.isNaN_ofInt _ _, Binary.rank_ofInt_mono _ h⟩

/-- Different integers that are not rounded have different values. -/
theorem equal_ofInt_eq_false (hm : m.natAbs ≤ 2 ^ 24) (hn : n.natAbs ≤ 2 ^ 24) (h : m ≠ n) :
    (ofInt m).equal (ofInt n) = false := by
  rw [Bool.eq_false_iff]
  intro heq
  have hrat := (equal_number_iff.1 heq).toRat_eq (Binary.ofInt_whole (by decide) hm).1
  rw [Binary.toRat_ofInt (by decide) hm, Binary.toRat_ofInt (by decide) hn] at hrat
  exact h (Int.cast_injective hrat)

/-- The text of an integer that is not rounded is its numeral. -/
theorem textView_ofInt (hn : n.natAbs ≤ 2 ^ 24) : (ofInt n).textView = .ok (toString n) := by
  obtain ⟨hfin, hmag⟩ := Binary.ofInt_whole (f := .single) (by decide) hn
  exact congrArg Except.ok (Layout.text_whole rfl rfl hfin (Binary.neg_ofInt _ n) hmag hn)

/-- The number view of a numeral is its integer. -/
theorem numberView_numeral (n : Int) :
    (string (toString n)).numberView = .ok (.ofInt .single n) := by
  rw [numberView, numberOfText_of_numeralText (numeralText_toString n), Binary.ofNumeral_int]

end Value

/-- A numeral that 64 bits hold is an operand, its integer. -/
theorem readOperand_numeral (hn : n.natAbs ≤ 2 ^ 53) : readOperand (toString n) = .ofInt n := by
  rw [readOperand_of_numeralText (numeralText_toString n), Binary.ofNumeral_int,
    Binary.convert_ofInt Format.double_wider_single (by decide) hn]
  rfl

/-- **Integers from the host** become the nearest numbers, on both ways into a value; they are
infinite for `u128` from halfway between the largest finite number and `2 ^ 128` on. The type of an
integer is not seen in its value, and the order of integers is kept. Up to `2 ^ 24` the number is
the integer, different integers have different values, and the numeral of the integer is the text of
the value and is read as it. -/
theorem integers_become_nearest_numbers :
    (∀ (t : IntType) (n : HostInt t), ∃ x : Single,
      Value.ofHost (.int t) rfl n = .number x ∧ Value.ofNative (.int t) n = .ok (.number x) ∧
      x.IsRounded (n.1 < 0) n.1 ∧ (x.isInfinite = true ↔ t = .u128 ∧ 2 ^ 128 - 2 ^ 103 ≤ n.1)) ∧
    (∀ (t u : IntType) (n : HostInt t) (m : HostInt u),
      (n.1 = m.1 → Value.ofHost (.int t) rfl n = .ofHost (.int u) rfl m) ∧
      (n.1 ≤ m.1 →
        OrderOp.le.apply (.ofHost (.int t) rfl n) (.ofHost (.int u) rfl m) = .ok true) ∧
      (n.1.natAbs ≤ 2 ^ 24 → m.1.natAbs ≤ 2 ^ 24 → n.1 ≠ m.1 →
        (Value.ofHost (.int t) rfl n).equal (.ofHost (.int u) rfl m) = false)) ∧
    ∀ (t : IntType) (n : HostInt t), n.1.natAbs ≤ 2 ^ 24 → ∃ x : Single,
      Value.ofHost (.int t) rfl n = .number x ∧ x.isFinite = true ∧ x.toRat = n.1 ∧
      (Value.ofHost (.int t) rfl n).textView = .ok (toString n.1) ∧
      (Value.string (toString n.1)).numberView = .ok x ∧
      readOperand (toString n.1) = .ofHost (.int t) rfl n := by
  refine ⟨fun t n => ?_, fun t u n m => ⟨fun h => ?_, Value.le_ofInt, Value.equal_ofInt_eq_false⟩,
    fun t n hn => ?_⟩
  · have hrounded := Binary.isRounded_ofInt .single n.1
    exact ⟨_, rfl, Value.ofNative_int t n, hrounded,
      hrounded.isInfinite_iff.trans n.overflow_le_iff⟩
  · exact congrArg Value.ofInt h
  · exact ⟨_, rfl, (Binary.ofInt_whole (by decide) hn).1, Binary.toRat_ofInt (by decide) hn,
      Value.textView_ofInt hn, Value.numberView_numeral n.1,
      readOperand_numeral (hn.trans (by decide))⟩

/-- The least integer that becomes infinite, one integer of two types, and the greatest one that is
surely exact. -/
theorem integers_become_nearest_numbers_at_limits :
    (∃ x : Single, Value.ofHost (.int .u128) rfl ⟨2 ^ 128 - 2 ^ 103, by decide⟩ = .number x ∧
      x.isInfinite = true) ∧
    Value.ofHost (.int .u8) rfl ⟨200, by decide⟩ = .ofHost (.int .i64) rfl ⟨200, by decide⟩ ∧
    OrderOp.le.apply (.ofHost (.int .i8) rfl ⟨-128, by decide⟩)
      (.ofHost (.int .usize) rfl ⟨16777217, by decide⟩) = .ok true ∧
    (Value.ofHost (.int .i32) rfl ⟨-16777216, by decide⟩).equal
      (.ofHost (.int .i128) rfl ⟨-16777215, by decide⟩) = false ∧
    (Value.ofHost (.int .i32) rfl ⟨-16777216, by decide⟩).textView = .ok "-16777216" ∧
    readOperand "-16777216" = .ofHost (.int .i32) rfl ⟨-16777216, by decide⟩ := by
  obtain ⟨hrounded, htypes, hexact⟩ := integers_become_nearest_numbers
  obtain ⟨x, hx, -, -, hinf⟩ := hrounded .u128 ⟨2 ^ 128 - 2 ^ 103, by decide⟩
  obtain ⟨-, -, -, -, htext, -, hread⟩ := hexact .i32 ⟨-16777216, by decide⟩ (by decide)
  exact ⟨⟨x, hx, hinf.2 ⟨rfl, le_rfl⟩⟩, (htypes _ _ _ _).1 rfl, (htypes _ _ _ _).2.1 (by decide),
    (htypes _ _ _ _).2.2 (by decide) (by decide) (by decide), htext, hread⟩

end ScriptCell
