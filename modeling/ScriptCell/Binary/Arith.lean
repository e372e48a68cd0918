import ScriptCell.Binary.Round

/-!
# Arithmetic and order of binary numbers

Sums, products and quotients are exact on units and rounded once. The remainder of two finite
numbers is a remainder of natural numbers of units, with the sign of the dividend, so it is exact.
The order of numbers that are not NaN is the order of their signed patterns.
-/

namespace ScriptCell.Binary

variable {f : Format}

/-- The number with its sign bit flipped; also of a NaN. -/
def negate (x : Binary f) : Binary f := ⟨!x.neg, x.mag, x.mag_lt⟩

/-- The sum, rounded once. Opposite numbers sum to `+0`, and only two `-0` to `-0`. -/
def add (x y : Binary f) : Binary f :=
  if x.isNaN then x
  else if y.isNaN then y
  else if x.isInfinite then
    if y.isInfinite ∧ x.neg ≠ y.neg then nan f false else x
  else if y.isInfinite then y
  else
    let s := x.toUnits + y.toUnits
    if s = 0 then zero f (x.neg && y.neg) else ofRatio f (s < 0) s.natAbs 1

/-- The difference: the sum with the second number negated. -/
def sub (x y : Binary f) : Binary f := x.add y.negate

/-- The product, rounded once; infinity times zero is a NaN. -/
def mul (x y : Binary f) : Binary f :=
  if x.isNaN then x
  else if y.isNaN then y
  else
    let neg := x.neg != y.neg
    if x.isInfinite then (if y.isZero then nan f false else infinity f neg)
    else if y.isInfinite then (if x.isZero then nan f false else infinity f neg)
    else ofRatio f neg (f.units x.mag * f.units y.mag) f.one

/-- The quotient, rounded once. A zero divisor gives an infinity, or a NaN below a zero dividend. -/
def div (x y : Binary f) : Binary f :=
  if x.isNaN then x
  else if y.isNaN then y
  else
    let neg := x.neg != y.neg
    if x.isInfinite then (if y.isInfinite then nan f false else infinity f neg)
    else if y.isInfinite then zero f neg
    else if y.isZero then (if x.isZero then nan f false else infinity f neg)
    else ofRatio f neg (f.units x.mag * f.one) (f.units y.mag)

/-- The exact remainder of division truncated towards zero; it has the sign of the dividend. -/
def rem (x y : Binary f) : Binary f :=
  if x.isNaN then x
  else if y.isNaN then y
  else if x.isInfinite ∨ y.isZero then nan f false
  else if y.isInfinite then x
  else ofRatio f x.neg (f.units x.mag % f.units y.mag) 1

/-- The signed pattern: an integer whose order is the order of the numbers, with both zeros at
`0`. -/
def rank (x : Binary f) : Int := if x.neg then -(x.mag : Int) else x.mag

/-- How two numbers are ordered; a NaN is ordered with nothing. -/
def compare? (x y : Binary f) : Option Ordering :=
  if x.isNaN || y.isNaN then none else some (compare x.rank y.rank)

/-- Numeric equality: a NaN differs from itself and the two zeros agree. -/
def numEq (x y : Binary f) : Bool := x.compare? y == some .eq

/-- Whether `x` is numerically less than `y`. -/
def numLt (x y : Binary f) : Bool := x.compare? y == some .lt

/-- The smaller of two numbers; a NaN gives way to the other number, and of two equal numbers the
first is taken. -/
def min (x y : Binary f) : Binary f :=
  if x.isNaN then y else if y.numLt x then y else x

/-- The larger of two numbers; a NaN gives way to the other number, and of two equal numbers the
first is taken. -/
def max (x y : Binary f) : Binary f :=
  if x.isNaN then y else if x.numLt y then y else x

@[simp] theorem negate_negate (x : Binary f) : x.negate.negate = x := by
  simp [negate]

@[simp] theorem isNaN_negate (x : Binary f) : x.negate.isNaN = x.isNaN := rfl

@[simp] theorem rank_negate (x : Binary f) : x.negate.rank = -x.rank := by
  cases h : x.neg <;> simp [rank, negate, h]

end ScriptCell.Binary
