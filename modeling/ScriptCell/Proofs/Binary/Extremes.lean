import Mathlib.Tactic.SplitIfs
import Mathlib.Tactic.Tauto
import ScriptCell.Proofs.Binary.Order

/-!
# The smaller and the larger of two numbers

A NaN gives way to the other operand, and of two numbers `min` takes the one of the smaller rank
(`Binary.min_of_numbers`). So it is associative, whatever the operands (`Binary.min_assoc`), and
infinity is its unit among numbers. The larger of two numbers is the smaller one of their negations,
negated (`Binary.max_eq_negate_min`), which carries every fact about `min` to `max`.
-/

namespace ScriptCell.Binary

variable {f : Format} {x y : Binary f}

/-! ## Numeric order -/

/-- Whether `x` is numerically at most `y`; a NaN is at most nothing. -/
def numLe (x y : Binary f) : Bool := x.numLt y || x.numEq y

theorem numLe_iff_rank :
    x.numLe y = true ↔ x.isNaN = false ∧ y.isNaN = false ∧ x.rank ≤ y.rank := by
  rw [numLe, Bool.or_eq_true, numLt_iff_rank, numEq_iff_rank, Int.le_iff_lt_or_eq]
  tauto

/-- Negation turns the order around. -/
@[simp] theorem numLe_negate (x y : Binary f) : x.negate.numLe y.negate = y.numLe x := by
  rw [Bool.eq_iff_iff, numLe_iff_rank, numLe_iff_rank]
  simp only [isNaN_negate, rank_negate, Int.neg_le_neg_iff]
  tauto

@[simp] theorem numEq_negate (x y : Binary f) : x.negate.numEq y.negate = x.numEq y := by
  rw [Bool.eq_iff_iff, numEq_iff_rank, numEq_iff_rank]
  simp only [isNaN_negate, rank_negate, Int.neg_inj]

@[simp] theorem negate_infinity (neg : Bool) : (infinity f neg).negate = infinity f !neg := rfl

/-- No number is above infinity. -/
theorem rank_le_infinity (hx : x.isNaN = false) : x.rank ≤ (infinity f false).rank := by
  have hmag : x.mag ≤ f.infPattern := by simpa [isNaN] using hx
  change x.rank ≤ (f.infPattern : Int)
  rw [rank]
  split <;> omega

/-! ## The smaller one -/

theorem min_of_isNaN (hx : x.isNaN = true) (y : Binary f) : x.min y = y := if_pos hx

/-- A number is not given up for a NaN. -/
theorem min_of_isNaN_right (hx : x.isNaN = false) (hy : y.isNaN = true) : x.min y = x := by
  have hlt : ¬ y.numLt x = true := fun h => by
    rw [(numLt_iff_rank.1 h).1] at hy
    exact Bool.false_ne_true hy
  rw [min, hx, if_neg Bool.false_ne_true, if_neg hlt]

/-- **Of two numbers the one of the smaller rank is taken**, and the first one if they have one
rank. -/
theorem min_of_numbers (hx : x.isNaN = false) (hy : y.isNaN = false) :
    x.min y = if y.rank < x.rank then y else x := by
  simp only [min, hx, Bool.false_eq_true, if_false, numLt_iff_rank, hy, true_and]

@[simp] theorem isNaN_min (x y : Binary f) : (x.min y).isNaN = (x.isNaN && y.isNaN) := by
  cases hx : x.isNaN with
  | true => rw [min_of_isNaN hx, Bool.true_and]
  | false =>
    cases hy : y.isNaN with
    | true => rw [min_of_isNaN_right hx hy, hx, Bool.false_and]
    | false => rw [min_of_numbers hx hy]; split <;> assumption

theorem rank_min (hx : x.isNaN = false) (hy : y.isNaN = false) :
    (x.min y).rank = Min.min x.rank y.rank := by
  rw [min_of_numbers hx hy]
  split <;> omega

/-- **`min` is associative**: the first one of the numbers of the smallest rank is taken. -/
theorem min_assoc (x y z : Binary f) : (x.min y).min z = x.min (y.min z) := by
  cases hx : x.isNaN with
  | true => rw [min_of_isNaN hx, min_of_isNaN hx]
  | false =>
    cases hy : y.isNaN with
    | true => rw [min_of_isNaN_right hx hy, min_of_isNaN hy]
    | false =>
      have hxy : (x.min y).isNaN = false := by rw [isNaN_min, hx, Bool.false_and]
      have hyz : (y.min z).isNaN = false := by rw [isNaN_min, hy, Bool.false_and]
      cases hz : z.isNaN with
      | true => rw [min_of_isNaN_right hxy hz, min_of_isNaN_right hy hz]
      | false =>
        rw [min_of_numbers hxy hz, min_of_numbers hx hyz, min_of_numbers hx hy,
          min_of_numbers hy hz]
        split_ifs <;> first | rfl | omega

instance : Std.Associative (min (f := f)) := ⟨min_assoc⟩

/-- Infinity is a unit among numbers. -/
theorem min_infinity (hx : x.isNaN = false) : x.min (infinity f false) = x := by
  rw [min_of_numbers hx (isNaN_infinity _), if_neg (Int.not_lt.2 (rank_le_infinity hx))]

/-! ## The larger one -/

/-- **`max` is `min` of what is negated.** -/
theorem max_eq_negate_min (x y : Binary f) : x.max y = (x.negate.min y.negate).negate := by
  have hlt : y.negate.numLt x.negate = x.numLt y := by
    rw [Bool.eq_iff_iff, numLt_iff_rank, numLt_iff_rank]
    simp only [isNaN_negate, rank_negate, Int.neg_lt_neg_iff]
    tauto
  rw [max, min, hlt, isNaN_negate]
  split
  · rw [negate_negate]
  · split <;> rw [negate_negate]

end ScriptCell.Binary
