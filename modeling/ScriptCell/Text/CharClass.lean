/-!
# Character classes given by ranges

A class of characters is a list of ranges of code points. The classes of the standard that a rule of
this library names are such lists, each in its own module.
-/

namespace ScriptCell

/-- Ranges of code points, both ends included. -/
abbrev CharRanges := List (Nat × Nat)

/-- Whether a character lies in one of the ranges. -/
def CharRanges.contains (rs : CharRanges) (c : Char) : Bool :=
  rs.any fun r => r.1 ≤ c.toNat && c.toNat ≤ r.2

/-- Membership in one of the ranges, as a proposition. -/
theorem CharRanges.contains_iff (rs : CharRanges) (c : Char) :
    rs.contains c = true ↔ ∃ r ∈ rs, r.1 ≤ c.toNat ∧ c.toNat ≤ r.2 := by
  simp [CharRanges.contains]

end ScriptCell
