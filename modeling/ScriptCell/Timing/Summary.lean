import ScriptCell.Binary.Convert

/-!
# Summaries of samples

The average, the least and the greatest of a list of samples. The sum is taken from left to right
and starts at `-0`, so that a lone `-0` is its own average. NaNs count in the average only.
-/

namespace ScriptCell.Timing

/-- A summary of samples. -/
structure Summary where
  /-- The average. -/
  average : Double
  /-- The least sample. -/
  least : Double
  /-- The greatest sample. -/
  greatest : Double
  deriving DecidableEq

/-- The sum of samples from left to right. -/
def sumOf (xs : List Double) : Double := xs.foldl Binary.add (.zero .double true)

/-- The average of samples; zero if there are none. -/
def averageOf (xs : List Double) : Double :=
  if xs = [] then .zero .double false else (sumOf xs).div (.ofInt .double xs.length)

/-- The least sample; infinite if there is none. -/
def leastOf (xs : List Double) : Double := xs.foldl Binary.min (.infinity .double false)

/-- The greatest sample; minus infinity if there is none. -/
def greatestOf (xs : List Double) : Double := xs.foldl Binary.max (.infinity .double true)

/-- Summarises samples. -/
def Summary.ofSamples (xs : List Double) : Summary := ⟨averageOf xs, leastOf xs, greatestOf xs⟩

end ScriptCell.Timing
