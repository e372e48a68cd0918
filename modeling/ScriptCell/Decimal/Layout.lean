import ScriptCell.Decimal.Shortest

/-!
# How numbers are written

A `Layout` holds the decisions of a number format: when digits are written positionally, whether
whole numbers end in `.0`, the sign of an exponent, the word for infinity. `Layout.text` writes a
binary number by its shortest decimal, `Binary.fixedText` with a fixed number of places.
-/

namespace ScriptCell

/-- The decisions of a number format. -/
structure Layout where
  /-- The leading exponents `lo ≤ e < hi` that are written positionally, or all of them. -/
  positional : Option (Int × Int)
  /-- Whether a whole number written positionally ends in `.0`. -/
  pointZero : Bool
  /-- Whether an exponent that is not negative carries a plus sign. -/
  plusSign : Bool
  /-- Which of two equally near shortest decimals is written. -/
  tie : Tie
  /-- The word for infinity. -/
  infinityWord : String

namespace Layout

/-- Whether a number with this leading exponent is written positionally. -/
def isPositional (l : Layout) (lead : Int) : Bool :=
  match l.positional with
  | none => true
  | some (lo, hi) => lo ≤ lead && lead < hi

/-- Writes `ds * 10 ^ p` with a point where it falls and zeros where they are needed. -/
def positionalChars (l : Layout) (ds : List Char) (p : Int) : List Char :=
  if 0 ≤ p then
    ds ++ List.replicate p.toNat '0' ++ (if l.pointZero then ['.', '0'] else [])
  else
    let places := (-p).toNat
    if places < ds.length then
      ds.take (ds.length - places) ++ '.' :: ds.drop (ds.length - places)
    else
      '0' :: '.' :: (List.replicate (places - ds.length) '0' ++ ds)

/-- Writes digits with a point behind the first and the leading exponent behind them. -/
def exponentialChars (l : Layout) (ds : List Char) (lead : Int) : List Char :=
  let mantissa := match ds with
    | c :: c' :: cs => c :: '.' :: c' :: cs
    | ds => ds
  let sign := if lead < 0 then ['-'] else if l.plusSign then ['+'] else []
  mantissa ++ 'e' :: sign ++ Nat.toDigits 10 lead.natAbs

/-- Writes a decimal without its sign. -/
def magnitudeChars (l : Layout) (d : Decimal) : List Char :=
  let ds := Nat.toDigits 10 d.digits
  let lead := d.exponent + ds.length - 1
  if l.isPositional lead then l.positionalChars ds d.exponent else l.exponentialChars ds lead

/-- Writes a decimal. -/
def decimalChars (l : Layout) (d : Decimal) : List Char :=
  (if d.neg then ['-'] else []) ++ l.magnitudeChars d

/-- Writes a number. -/
def text {f : Format} (l : Layout) (x : Binary f) : String :=
  if x.isNaN then "NaN"
  else if x.isInfinite then (if x.neg then "-" else "") ++ l.infinityWord
  else String.ofList (l.decimalChars (x.shortest l.tie))

end Layout

/-- Writes a number rounded to a fixed number of places behind the point; an exact half goes to the
even neighbour. -/
def Binary.fixedText {f : Format} (places : Nat) (x : Binary f) : String :=
  if x.isNaN then "NaN"
  else
    (if x.neg then "-" else "") ++
      if x.isInfinite then "inf"
      else
        let step := Nat.pow 10 places
        let n := roundDiv (f.units x.mag * step) f.one
        let fraction := Nat.toDigits 10 (n % step)
        let padded := List.replicate (places - fraction.length) '0' ++ fraction
        String.ofList (Nat.toDigits 10 (n / step)) ++
          if places = 0 then "" else "." ++ String.ofList padded

end ScriptCell
