import ScriptCell.Binary.Convert

/-!
# Decimals

A `Decimal` is a signed whole number of powers of ten. Reading one as a binary number rounds its
exact value once. Decimals far outside a format's range are settled by their exponents, so that a
short text with a huge exponent costs no work.
-/

namespace ScriptCell

/-- The decimal `± digits * 10 ^ exponent`; a zero keeps its sign. -/
structure Decimal where
  /-- Whether the decimal is negative. -/
  neg : Bool
  /-- The digits, read as one whole number. -/
  digits : Nat
  /-- The power of ten of the last digit. -/
  exponent : Int
  deriving DecidableEq

namespace Decimal

/-- Whether a decimal with a nonzero digit is surely beyond the finite numbers of `f`: it is at
least `10 ^ exponent`, hence at least `2 ^ (3 * exponent)`. -/
def isHuge (f : Format) (d : Decimal) : Bool :=
  (Nat.pow 2 (f.expBits - 1) : Int) ≤ 3 * d.exponent

/-- Whether a decimal is surely below half a unit of `f`: its digits are below
`2 ^ (log2 digits + 1)`, and a negative power of ten is at most that power of eight. -/
def isTiny (f : Format) (d : Decimal) : Bool :=
  d.exponent < 0 && (d.digits.log2 : Int) + 1 + 3 * d.exponent < -(f.scale + 1 : Int)

end Decimal

/-- The number nearest to a decimal; a tie goes to the even pattern. -/
def Binary.ofDecimal (f : Format) (d : Decimal) : Binary f :=
  if d.digits = 0 || d.isTiny f then zero f d.neg
  else if d.isHuge f then infinity f d.neg
  else
    ofRatio f d.neg (d.digits * Nat.pow 10 d.exponent.toNat * f.one)
      (Nat.pow 10 (-d.exponent).toNat)

end ScriptCell
