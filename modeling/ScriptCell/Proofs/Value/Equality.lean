import ScriptCell.Value.Key
import ScriptCell.Proofs.Binary.Order

/-!
# Equality of values and what they feed to a hash

Equality is defined case by case, with all NaNs one number and both zeros one number; the items that
a value feeds to a hash are defined from the bits of a number. `Value.equal_iff_keyItems_eq` says
that the two agree in both directions. Equality is an equivalence because having the same items is
one (`Value.equal_equivalence`).
-/

namespace ScriptCell

namespace Value

/-! ## Numbers -/

/-- Two numbers are the same value if they are the same number, two zeros or two NaNs. -/
theorem sameNumber_iff {x y : Single} :
    sameNumber x y = true ↔
      x = y ∨ (x.isZero = true ∧ y.isZero = true) ∨ (x.isNaN = true ∧ y.isNaN = true) := by
  rw [sameNumber, Bool.or_eq_true, Bool.and_eq_true, Binary.numEq_iff]
  constructor
  · rintro (⟨-, -, h | h⟩ | h)
    · exact .inl h
    · exact .inr (.inl h)
    · exact .inr (.inr h)
  · rintro (rfl | ⟨hx, hy⟩ | h)
    · cases hn : x.isNaN with
      | false => exact .inl ⟨rfl, rfl, .inl rfl⟩
      | true => exact .inr ⟨rfl, rfl⟩
    · exact .inl ⟨Binary.isNaN_of_isZero hx, Binary.isNaN_of_isZero hy, .inr ⟨hx, hy⟩⟩
    · exact .inr h

/-- The key of the NaNs is the key of nothing else. -/
theorem numberKey_eq_nan_iff {x : Single} :
    numberKey x = (Binary.nan .single false).toBits ↔ x.isNaN = true := by
  have hnan : (Binary.nan .single false).isNaN = true := Binary.isNaN_nan _
  unfold numberKey
  split
  · next hx => simp [hx]
  · next hx =>
    refine ⟨fun h => ?_, fun h => absurd h hx⟩
    split at h
    · have := Binary.isNaN_of_isZero (Binary.isZero_of_toBits_eq_zero h.symm)
      rw [hnan] at this
      cases this
    · rw [Binary.toBits_injective h, hnan]

/-- The key of the zeros is the key of nothing else. -/
theorem numberKey_eq_zero_iff {x : Single} : numberKey x = 0 ↔ x.isZero = true := by
  constructor
  · intro h
    unfold numberKey at h
    split at h
    · have := Binary.isNaN_of_isZero (Binary.isZero_of_toBits_eq_zero h)
      rw [Binary.isNaN_nan] at this
      cases this
    · split at h
      · assumption
      · exact Binary.isZero_of_toBits_eq_zero h
  · intro h
    simp [numberKey, h, Binary.isNaN_of_isZero h]

/-- Two numbers have one key exactly if they are the same number, two zeros or two NaNs. -/
theorem numberKey_eq_iff {x y : Single} :
    numberKey x = numberKey y ↔
      x = y ∨ (x.isZero = true ∧ y.isZero = true) ∨ (x.isNaN = true ∧ y.isNaN = true) := by
  constructor
  · intro h
    by_cases hn : x.isNaN = true
    · exact .inr (.inr ⟨hn, numberKey_eq_nan_iff.1 (h ▸ numberKey_eq_nan_iff.2 hn)⟩)
    by_cases hz : x.isZero = true
    · exact .inr (.inl ⟨hz, numberKey_eq_zero_iff.1 (h ▸ numberKey_eq_zero_iff.2 hz)⟩)
    have hn' : ¬ y.isNaN = true := fun hy =>
      hn (numberKey_eq_nan_iff.1 (h.trans (numberKey_eq_nan_iff.2 hy)))
    have hz' : ¬ y.isZero = true := fun hy =>
      hz (numberKey_eq_zero_iff.1 (h.trans (numberKey_eq_zero_iff.2 hy)))
    simp only [numberKey, if_neg hn, if_neg hz, if_neg hn', if_neg hz'] at h
    exact .inl (Binary.toBits_injective h)
  · rintro (rfl | ⟨hx, hy⟩ | ⟨hx, hy⟩)
    · rfl
    · rw [numberKey_eq_zero_iff.2 hx, numberKey_eq_zero_iff.2 hy]
    · rw [numberKey_eq_nan_iff.2 hx, numberKey_eq_nan_iff.2 hy]

/-! ## Values -/

/-- **Equality and hashing agree.** Two values are equal exactly if they feed the same items to a
hash. -/
theorem equal_iff_keyItems_eq {a b : Value} : a.equal b = true ↔ a.keyItems = b.keyItems := by
  cases a <;> cases b <;> simp [equal, keyItems, sameNumber_iff, numberKey_eq_iff]

/-- Every value is equal to itself, also a NaN. -/
@[simp] theorem equal_self (a : Value) : a.equal a = true := equal_iff_keyItems_eq.2 rfl

theorem equal_comm (a b : Value) : a.equal b = b.equal a := by
  rw [Bool.eq_iff_iff, equal_iff_keyItems_eq, equal_iff_keyItems_eq, eq_comm]

theorem equal_trans {a b c : Value} (hab : a.equal b = true) (hbc : b.equal c = true) :
    a.equal c = true := by
  rw [equal_iff_keyItems_eq] at hab hbc ⊢
  exact hab.trans hbc

/-- Equal values are equal to the same values. -/
theorem equal_congr_right {a b : Value} (h : a.equal b = true) (c : Value) :
    c.equal a = c.equal b := by
  rw [equal_iff_keyItems_eq] at h
  rw [Bool.eq_iff_iff, equal_iff_keyItems_eq, equal_iff_keyItems_eq, h]

/-- Equality of values is an equivalence. -/
theorem equal_equivalence : Equivalence fun a b : Value => a.equal b = true :=
  ⟨equal_self, fun {a b} h => by rwa [equal_comm b a], equal_trans⟩

/-- Values up to equality. -/
def equalSetoid : Setoid Value := ⟨_, equal_equivalence⟩

end Value

end ScriptCell
