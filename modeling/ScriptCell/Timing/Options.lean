import ScriptCell.Text.Terminal

/-!
# Options of the timing runner

Options have long names, and most have a short one and take a value. The values of three of them are
counts, which are read as integers of 64 bits and then have to fit into 32 bits. `Options` is what
the arguments say in the end; `Options.ofArgs`, in `ScriptCell.Timing.Options.Reader`, reads it off
them.
-/

namespace ScriptCell.Timing

/-! ## Names -/

/-- The options. -/
inductive Flag where
  | case
  | iterations
  | warmup
  | ops
  | output
  | list
  | help
  deriving DecidableEq

namespace Flag

/-- Every option. -/
def all : List Flag := [.case, .iterations, .warmup, .ops, .output, .list, .help]

/-- The long name of an option. -/
def long : Flag → String
  | .case => "case"
  | .iterations => "iterations"
  | .warmup => "warmup"
  | .ops => "ops"
  | .output => "output"
  | .list => "list"
  | .help => "help"

/-- The short name of an option, if it has one. -/
def short? : Flag → Option Char
  | .case => some 'c'
  | .iterations => some 'n'
  | .warmup => some 'w'
  | .output => some 'o'
  | .help => some 'h'
  | .ops | .list => none

/-- What stands for the value of an option in messages, if it takes one. -/
def valueName? : Flag → Option String
  | .case => some "CASES"
  | .iterations => some "ITERATIONS"
  | .warmup => some "WARMUP"
  | .ops => some "OPS"
  | .output => some "OUTPUT"
  | .list | .help => none

/-- An option in messages. -/
def shown (f : Flag) : String :=
  match f.valueName? with
  | some v => "--" ++ f.long ++ " <" ++ v ++ ">"
  | none => "--" ++ f.long

end Flag

/-! ## Refusals -/

/-- Why text is no count. -/
inductive CountError where
  /-- There is no text. -/
  | empty
  /-- A character is no digit. -/
  | digit
  /-- The number does not fit into 64 bits from above. -/
  | large
  /-- The number does not fit into 64 bits from below. -/
  | small
  /-- The number is no count of 32 bits. -/
  | range (n : Int)
  deriving DecidableEq

/-- The wording of a refused count. -/
def CountError.message : CountError → String
  | .empty => "cannot parse integer from empty string"
  | .digit => "invalid digit found in string"
  | .large => "number too large to fit in target type"
  | .small => "number too small to fit in target type"
  | .range n => Int.repr n ++ " is not in 0..=4294967295"

/-- Why arguments are refused. -/
inductive OptionError where
  /-- An argument is no option, nor the value of one. -/
  | unexpected (arg : String)
  /-- An option has no value. -/
  | missingValue (f : Flag)
  /-- An option has a value but takes none. -/
  | unneededValue (value : String) (f : Flag)
  /-- An option is given twice. -/
  | repeated (f : Flag)
  /-- A value is no count. -/
  | badCount (value : String) (f : Flag) (cause : CountError)
  deriving DecidableEq

/-- The wording of a refusal. What the arguments hold is shown without its control sequences. -/
def OptionError.message : OptionError → String
  | .unexpected arg => "unexpected argument '" ++ visibleText arg ++ "' found"
  | .missingValue f => "a value is required for '" ++ f.shown ++ "' but none was supplied"
  | .unneededValue value f =>
    "unexpected value '" ++ visibleText value ++ "' for '" ++ f.shown ++
      "' found; no more were expected"
  | .repeated f => "the argument '" ++ f.shown ++ "' cannot be used multiple times"
  | .badCount value f cause =>
    "invalid value '" ++ visibleText value ++ "' for '" ++ f.shown ++ "': " ++ cause.message

/-! ## Settings and counts -/

/-- What the options say. -/
structure Options where
  /-- The names of the cases to run. -/
  cases : List String
  /-- The number of timed passes. -/
  iterations : Nat
  /-- The number of passes that are not timed. -/
  warmup : Nat
  /-- The number of steps in a pass. -/
  ops : Nat
  /-- Where the report goes. -/
  output : Option String
  /-- Whether only the table of cases is wanted. -/
  list : Bool
  /-- Whether only help is wanted. -/
  help : Bool
  deriving DecidableEq

/-- What holds without options. -/
def Options.default : Options := ⟨[], 10, 2, 100000, none, false, false⟩

/-- Reads digits behind those read so far, within 64 bits. -/
def readDigits (neg : Bool) : Int → List Char → Except CountError Int
  | n, [] => .ok n
  | n, c :: cs =>
    if !c.isDigit then .error .digit
    else
      let d : Int := c.toNat - '0'.toNat
      let n' := if neg then 10 * n - d else 10 * n + d
      if n' < -9223372036854775808 then .error .small
      else if 9223372036854775807 < n' then .error .large
      else readDigits neg n' cs

/-- Reads an integer of 64 bits with an optional sign. -/
def readInteger : List Char → Except CountError Int
  | [] => .error .empty
  | ['-'] | ['+'] => .error .digit
  | '-' :: cs => readDigits true 0 cs
  | '+' :: cs => readDigits false 0 cs
  | cs => readDigits false 0 cs

/-- Reads a count of 32 bits. -/
def readCount (s : String) : Except CountError Nat := do
  let n ← readInteger s.toList
  if 0 ≤ n ∧ n ≤ 4294967295 then pure n.toNat else .error (.range n)

end ScriptCell.Timing
