import ScriptCell.Binary.Convert
import ScriptCell.Error

/-!
# Measuring

Measuring runs warmup passes without looking at the clock, and then timed passes with a reading of
the clock before and after each. A pass runs its step a number of times and stops at the first
failure. The functions are written for any monad, so that the same text runs against a real clock
and in a proof.
-/

namespace ScriptCell.Timing

/-- How much is run. -/
structure Counts where
  /-- The number of timed passes. -/
  iterations : Nat
  /-- The number of passes before them that are not timed. -/
  warmup : Nat
  /-- The number of steps in a pass. -/
  ops : Nat
  deriving DecidableEq

section

variable {m : Type → Type} [Monad m] {α : Type}

/-- Runs a step `n` times and stops at the first failure. -/
@[specialize]
def runPass (step : m (Except Error α)) : Nat → m (Except Error Unit)
  | 0 => pure (.ok ())
  | n + 1 => do
    match ← step with
    | .error e => pure (.error e)
    | .ok _ => runPass step n

/-- Runs `n` passes that are not timed. -/
@[specialize]
def runWarmup (step : m (Except Error α)) (ops : Nat) : Nat → m (Except Error Unit)
  | 0 => pure (.ok ())
  | n + 1 => do
    match ← runPass step ops with
    | .error e => pure (.error e)
    | .ok _ => runWarmup step ops n

/-- Runs `n` timed passes; the totals are those passed in, the last one first, followed by
theirs. -/
@[specialize]
def runTimed (clock : m Nat) (step : m (Except Error α)) (ops : Nat) (totals : List Nat) :
    Nat → m (Except Error (List Nat))
  | 0 => pure (.ok totals.reverse)
  | n + 1 => do
    let start ← clock
    match ← runPass step ops with
    | .error e => pure (.error e)
    | .ok _ =>
      let stop ← clock
      runTimed clock step ops ((stop - start) :: totals) n

/-- Measures a step: the totals of the timed passes in ticks of the clock. -/
@[specialize]
def measure (clock : m Nat) (step : m (Except Error α)) (n : Counts) :
    m (Except Error (List Nat)) := do
  match ← runWarmup step n.ops n.warmup with
  | .error e => pure (.error e)
  | .ok _ => runTimed clock step n.ops [] n.iterations

end

/-- Nanoseconds as milliseconds: the seconds and the rest are converted, added and then scaled. -/
def milliseconds (nanoseconds : Nat) : Double :=
  let whole := Binary.ofInt .double (nanoseconds / 1000000000 : Nat)
  let rest := Binary.ofInt .double (nanoseconds % 1000000000 : Nat)
  (whole.add (rest.div (.ofInt .double 1000000000))).mul (.ofInt .double 1000)

end ScriptCell.Timing
