import ScriptCell.Binary.Arith

/-!
# Conversions of binary numbers

Integers and numbers of another format become the nearest number of a format; a number becomes a
word of 64 bits by dropping its fraction and stopping at the ends of the range.
-/

namespace ScriptCell.Binary

/-- The number nearest to an integer. -/
def ofInt (f : Format) (n : Int) : Binary f := ofRatio f (n < 0) (n.natAbs * f.one) 1

/-- The number of the format `g` nearest to a number of the format `f`; a NaN stays a NaN of its
sign. -/
def convert {f : Format} (g : Format) (x : Binary f) : Binary g :=
  if x.isNaN then nan g x.neg
  else if x.isInfinite then infinity g x.neg
  else ofRatio g x.neg (f.units x.mag * g.one) f.one

/-- The largest word of 64 bits. -/
def maxWord : Nat := 18446744073709551615

/-- The whole part as a word of 64 bits: NaN and negative numbers are `0`, and what is too large is
the largest word. -/
def toWord {f : Format} (x : Binary f) : Nat :=
  if x.isNaN || x.neg then 0
  else if x.isInfinite then maxWord
  else Min.min (f.units x.mag / f.one) maxWord

end ScriptCell.Binary
