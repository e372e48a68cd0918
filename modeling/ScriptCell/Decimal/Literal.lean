import ScriptCell.Decimal.Basic

/-!
# Number text

The grammar of numbers in text: an optional sign, then either decimal digits with at most one point
and at least one digit, followed by an optional exponent, or one of the words `inf`, `infinity` and
`nan` in any letter case. Nothing may stand before or after it.

* `Numeral.ofChars?_nil`: the empty text is no number.
-/

namespace ScriptCell

/-- What number text denotes, before it is rounded to a format. -/
inductive Numeral where
  /-- A decimal of any length. -/
  | decimal (d : Decimal)
  /-- A signed infinity. -/
  | infinity (neg : Bool)
  /-- A signed NaN. -/
  | nan (neg : Bool)
  deriving DecidableEq

namespace Numeral

/-- Splits an optional sign off: whether it is a minus, and what follows. -/
def splitSign : List Char → Bool × List Char
  | '-' :: cs => (true, cs)
  | '+' :: cs => (false, cs)
  | cs => (false, cs)

/-- The longest run of digits in front, and what follows it. -/
def splitDigits (cs : List Char) : List Char × List Char :=
  (cs.takeWhile Char.isDigit, cs.dropWhile Char.isDigit)

/-- The digits behind a point, if one stands in front, and what follows. -/
def splitFraction : List Char → List Char × List Char
  | '.' :: cs => splitDigits cs
  | cs => ([], cs)

/-- Reads an optional exponent that ends the text. -/
def exponent? : List Char → Option Int
  | [] => some 0
  | e :: cs =>
    let (neg, ds) := splitSign cs
    if (e = 'e' ∨ e = 'E') ∧ ds ≠ [] ∧ ds.all Char.isDigit then
      some (if neg then -(Nat.ofDigitChars 10 ds 0 : Int) else Nat.ofDigitChars 10 ds 0)
    else none

/-- Reads unsigned decimal digits with an optional point and exponent. -/
def decimal? (neg : Bool) (cs : List Char) : Option Decimal :=
  let (whole, rest) := splitDigits cs
  let (fraction, rest) := splitFraction rest
  if whole ++ fraction = [] then none
  else
    (exponent? rest).map fun e =>
      ⟨neg, Nat.ofDigitChars 10 (whole ++ fraction) 0, e - fraction.length⟩

/-- Reads one of the words for infinity and NaN. -/
def word? (neg : Bool) (cs : List Char) : Option Numeral :=
  let w := cs.map Char.toLower
  if w = ['i', 'n', 'f'] ∨ w = ['i', 'n', 'f', 'i', 'n', 'i', 't', 'y'] then some (.infinity neg)
  else if w = ['n', 'a', 'n'] then some (.nan neg)
  else none

/-- Reads number text. -/
def ofChars? (cs : List Char) : Option Numeral :=
  let (neg, body) := splitSign cs
  match decimal? neg body with
  | some d => some (.decimal d)
  | none => word? neg body

/-- The empty text is no number. -/
@[simp] theorem ofChars?_nil : ofChars? [] = none := by decide

end Numeral

namespace Binary

/-- The number of a format that a numeral denotes, rounded once. -/
def ofNumeral (f : Format) : Numeral → Binary f
  | .decimal d => ofDecimal f d
  | .infinity neg => infinity f neg
  | .nan neg => nan f neg

/-- Reads text as a number of a format. -/
def ofText? (f : Format) (s : String) : Option (Binary f) :=
  (Numeral.ofChars? s.toList).map (ofNumeral f)

end Binary

end ScriptCell
