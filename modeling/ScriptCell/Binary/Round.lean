import ScriptCell.Binary.Format

/-!
# Rounding to nearest, ties to even

Every operation of a format computes its exact result as a quotient of natural numbers of units and
rounds it once. `roundDiv` rounds a quotient to a whole number, `Format.roundPattern` to a magnitude
pattern. Patterns of successive magnitudes are successive numbers, so a significand that rounds up
to the next binade, and a result that rounds up to infinity, need no case of their own.

* `roundDiv_one`: a whole number rounds to itself.
* `Format.roundPattern_le`: rounding never leaves the finite patterns but for infinity.
-/

namespace ScriptCell

/-- The whole number nearest to `n / d`; a tie goes to the even neighbour. -/
def roundDiv (n d : Nat) : Nat :=
  let q := n / d
  let r := n % d
  if d < 2 * r ∨ d = 2 * r ∧ q % 2 = 1 then q + 1 else q

/-- A whole number rounds to itself. -/
@[simp] theorem roundDiv_one (n : Nat) : roundDiv n 1 = n := by
  simp [roundDiv, Nat.mod_one]

/-- The pattern of the magnitude nearest to `n / d` units; a tie goes to the even pattern, and what
rounds beyond the largest finite magnitude is infinite. -/
def Format.roundPattern (f : Format) (n d : Nat) : Nat :=
  let e := (n / d).log2 - f.fracBits
  min (e * f.hidden + roundDiv n (d * Nat.pow 2 e)) f.infPattern

/-- Rounding never leaves the finite patterns but for infinity. -/
theorem Format.roundPattern_le (f : Format) (n d : Nat) : f.roundPattern n d ≤ f.infPattern :=
  Nat.min_le_right _ _

/-- The number of the given sign whose magnitude is nearest to `n / d` units. -/
def Binary.ofRatio (f : Format) (neg : Bool) (n d : Nat) : Binary f :=
  ⟨neg, f.roundPattern n d,
    Nat.lt_of_le_of_lt (f.roundPattern_le n d) f.infPattern_lt_patterns⟩

/-- Rounding never makes a NaN. -/
@[simp] theorem Binary.isNaN_ofRatio (f : Format) (neg : Bool) (n d : Nat) :
    (Binary.ofRatio f neg n d).isNaN = false :=
  decide_eq_false (Nat.not_lt.2 (f.roundPattern_le n d))

end ScriptCell
