/-!
# Binary floating-point formats

A `Format` is fixed by the widths of its stored fraction and of its exponent field. A number of a
format is a sign and a *magnitude pattern*, the exponent field above the fraction read as one
natural number. Patterns grow with the magnitude they stand for, the pattern `infPattern` is
infinity, and the patterns above it are the NaNs.

Every finite magnitude is a whole number of *units*, the least positive magnitude of the format,
which is `2 ^ -scale`. `Format.units` reads that number off a pattern, so that sums, products,
quotients and comparisons of magnitudes are computed exactly on natural numbers.

* `Format.infPattern_lt_patterns` and `Format.nanPattern_lt_patterns`: infinity and the canonical
  NaN are patterns of the format.
* `Binary.ofBits_toBits`: a number is determined by its bits.
-/

namespace ScriptCell

/-! ## Formats -/

/-- A binary interchange format: the width of the stored fraction and of the exponent field. -/
structure Format where
  /-- The number of stored fraction bits; the significand has one bit more. -/
  fracBits : Nat
  /-- The number of bits of the exponent field. -/
  expBits : Nat
  fracBits_pos : 0 < fracBits := by decide
  two_le_expBits : 2 ≤ expBits := by decide
  deriving DecidableEq

namespace Format

/-- The format of 32 bits. -/
def single : Format := ⟨23, 8, by decide, by decide⟩

/-- The format of 64 bits. -/
def double : Format := ⟨52, 11, by decide, by decide⟩

/-- The number of patterns in a binade, which is also the least significand of full length. -/
def hidden (f : Format) : Nat := Nat.pow 2 f.fracBits

/-- The number of magnitude patterns. -/
def patterns (f : Format) : Nat := Nat.pow 2 f.expBits * f.hidden

/-- The pattern of infinity: the largest exponent field with an empty fraction. -/
def infPattern (f : Format) : Nat := (Nat.pow 2 f.expBits - 1) * f.hidden

/-- The canonical NaN: the first fraction bit above infinity. -/
def nanPattern (f : Format) : Nat := f.infPattern + Nat.pow 2 (f.fracBits - 1)

/-- A unit is `2 ^ -scale`. -/
def scale (f : Format) : Nat := Nat.pow 2 (f.expBits - 1) + f.fracBits - 2

/-- The number of units in one. -/
def one (f : Format) : Nat := Nat.pow 2 f.scale

/-- The number of units in the magnitude with pattern `k`. The first two binades have a step of one
unit; from then on the step doubles with each binade. The formula does not stop at infinity. -/
def units (f : Format) (k : Nat) : Nat :=
  let e := k / f.hidden - 1
  (k - e * f.hidden) * Nat.pow 2 e

theorem hidden_pos (f : Format) : 0 < f.hidden := Nat.two_pow_pos _

theorem one_pos (f : Format) : 0 < f.one := Nat.two_pow_pos _

/-- Infinity is not the pattern of a zero. -/
theorem infPattern_pos (f : Format) : 0 < f.infPattern :=
  Nat.mul_pos (Nat.sub_pos_of_lt (Nat.one_lt_two_pow (by have := f.two_le_expBits; omega)))
    f.hidden_pos

theorem patterns_eq (f : Format) : f.patterns = f.infPattern + f.hidden := by
  have h : 0 < Nat.pow 2 f.expBits := Nat.two_pow_pos _
  rw [patterns, infPattern, ← Nat.succ_mul]
  congr 1
  omega

/-- Infinity is a pattern of the format. -/
theorem infPattern_lt_patterns (f : Format) : f.infPattern < f.patterns := by
  have := f.hidden_pos
  rw [patterns_eq]
  omega

/-- The canonical NaN is a pattern of the format. -/
theorem nanPattern_lt_patterns (f : Format) : f.nanPattern < f.patterns := by
  have h : Nat.pow 2 (f.fracBits - 1) < f.hidden :=
    Nat.pow_lt_pow_right (by decide) (by have := f.fracBits_pos; omega)
  rw [patterns_eq, nanPattern]
  omega

end Format

/-! ## Numbers of a format -/

/-- A number of the format `f`: a sign and a magnitude pattern. -/
structure Binary (f : Format) where
  /-- Whether the sign bit is set. -/
  neg : Bool
  /-- The magnitude pattern. -/
  mag : Nat
  mag_lt : mag < f.patterns
  deriving DecidableEq

/-- Numbers of 32 bits. -/
abbrev Single := Binary .single

/-- Numbers of 64 bits. -/
abbrev Double := Binary .double

namespace Binary

variable {f : Format}

/-- The number with these bits: the sign bit stands above the magnitude pattern. -/
def ofBits (f : Format) (n : Nat) : Binary f :=
  ⟨n / f.patterns % 2 == 1, n % f.patterns,
    Nat.mod_lt _ (Nat.lt_of_le_of_lt (Nat.zero_le _) f.infPattern_lt_patterns)⟩

/-- The bits of a number. -/
def toBits (x : Binary f) : Nat := (if x.neg then f.patterns else 0) + x.mag

/-- The zero of the given sign. -/
def zero (f : Format) (neg : Bool) : Binary f :=
  ⟨neg, 0, Nat.lt_of_le_of_lt (Nat.zero_le _) f.infPattern_lt_patterns⟩

/-- The infinity of the given sign. -/
def infinity (f : Format) (neg : Bool) : Binary f := ⟨neg, f.infPattern, f.infPattern_lt_patterns⟩

/-- The canonical NaN of the given sign. -/
def nan (f : Format) (neg : Bool) : Binary f := ⟨neg, f.nanPattern, f.nanPattern_lt_patterns⟩

/-- Whether a number is a NaN. -/
def isNaN (x : Binary f) : Bool := f.infPattern < x.mag

/-- Whether a number is an infinity. -/
def isInfinite (x : Binary f) : Bool := x.mag == f.infPattern

/-- Whether a number is finite. -/
def isFinite (x : Binary f) : Bool := x.mag < f.infPattern

/-- Whether a number is a zero of either sign. -/
def isZero (x : Binary f) : Bool := x.mag == 0

/-- The exact number of units of a finite number, with its sign. -/
def toUnits (x : Binary f) : Int :=
  if x.neg then -(f.units x.mag : Int) else f.units x.mag

instance : Inhabited (Binary f) := ⟨zero f false⟩

@[simp] theorem toBits_mag (x : Binary f) : x.toBits % f.patterns = x.mag := by
  have h := x.mag_lt
  unfold toBits
  cases x.neg <;> simp [Nat.mod_eq_of_lt h]

/-- A number is determined by its bits. -/
@[simp] theorem ofBits_toBits (x : Binary f) : ofBits f x.toBits = x := by
  have h := x.mag_lt
  have hp : 0 < f.patterns := Nat.lt_of_le_of_lt (Nat.zero_le _) h
  obtain ⟨neg, mag, hmag⟩ := x
  have hm : toBits (⟨neg, mag, hmag⟩ : Binary f) % f.patterns = mag := toBits_mag _
  cases neg with
  | false => simp [ofBits, toBits, Nat.mod_eq_of_lt h, Nat.div_eq_of_lt h]
  | true =>
    have hd : (f.patterns + mag) / f.patterns = 1 := by
      rw [Nat.add_div_left _ hp, Nat.div_eq_of_lt h]
    simp [ofBits, toBits, Nat.mod_eq_of_lt h, hd]

end Binary

end ScriptCell
