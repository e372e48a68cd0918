import ScriptCell.Decimal.Basic

/-!
# The fewest digits that read back

The reals that round to a magnitude form an interval between the midpoints to its two neighbours;
the midpoints belong to it when the pattern is even, since ties go to the even pattern.
`Binary.shortest` takes the coarsest grid of a power of ten that has a point in the interval, and on
that grid the point nearest to the magnitude. All is computed in *half units*, in which the
midpoints are whole numbers.

The grid `10 ^ -scale` holds every magnitude itself, so the search always ends with a decimal that
reads back.
-/

namespace ScriptCell

/-- Which of two grid points equally near to a magnitude is taken. -/
inductive Tie where
  /-- The larger one. -/
  | up
  /-- The even one. -/
  | even
  deriving DecidableEq

/-- An interval of magnitudes around a point of it, in half units. -/
structure Interval where
  /-- The lower end. -/
  lower : Nat
  /-- The magnitude itself. -/
  centre : Nat
  /-- The upper end. -/
  upper : Nat
  /-- Whether the ends belong to the interval. -/
  closed : Bool

namespace Interval

/-- Whether the point `x / a` lies in the interval. -/
def contains (i : Interval) (a x : Nat) : Bool :=
  if i.closed then i.lower * a ≤ x && x ≤ i.upper * a else i.lower * a < x && x < i.upper * a

/-- The multiple of `b / a` in the interval that is nearest to the centre, divided by `b / a`. Only
the two multiples next to the centre can be it. -/
def nearestMultiple? (i : Interval) (tie : Tie) (a b : Nat) : Option Nat :=
  let q := i.centre * a / b
  let r := i.centre * a % b
  let above := b < 2 * r || (b == 2 * r && (tie == .up || q % 2 == 1))
  match i.contains a (q * b), i.contains a ((q + 1) * b) with
  | true, true => some (if above then q + 1 else q)
  | true, false => some q
  | false, true => some (q + 1)
  | false, false => none

end Interval

namespace Format

/-- The magnitudes that round to the pattern `k`. -/
def rounding (f : Format) (k : Nat) : Interval :=
  ⟨f.units (k - 1) + f.units k, 2 * f.units k, f.units k + f.units (k + 1), k % 2 == 0⟩

/-- The nearest point of the grid `10 ^ p` among the magnitudes that round to the pattern `k`. -/
def gridPoint? (f : Format) (tie : Tie) (k : Nat) (p : Int) : Option Nat :=
  (f.rounding k).nearestMultiple? tie (Nat.pow 10 (-p).toNat) (Nat.pow 10 p.toNat * (2 * f.one))

/-- Searches `n` grids from `10 ^ p` downwards; the answer is a number of steps and the exponent of
its grid. When no grid is left the magnitude is written out in full. -/
def search (f : Format) (tie : Tie) (k : Nat) : Nat → Int → Nat × Int
  | 0, _ => (f.units k * Nat.pow 5 f.scale, -f.scale)
  | n + 1, p =>
    match f.gridPoint? tie k p with
    | some d => (d, p)
    | none => search f tie k n (p - 1)

/-- An exponent whose power of ten exceeds every magnitude that rounds to the pattern `k`. -/
def topExponent (f : Format) (k : Nat) : Nat :=
  ((f.rounding k).upper / (2 * f.one)).log2 / 3 + 1

end Format

/-- The decimal with the fewest digits that reads back as the finite number `x`, and of those the
nearest one. -/
def Binary.shortest {f : Format} (tie : Tie) (x : Binary f) : Decimal :=
  if x.isZero then ⟨x.neg, 0, 0⟩
  else
    let top := f.topExponent x.mag
    let (d, p) := f.search tie x.mag (top + f.scale + 1) top
    ⟨x.neg, d, p⟩

end ScriptCell
