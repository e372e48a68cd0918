import ScriptCell.Timing.Options

/-!
# Reading the options of the timing runner

A value stands behind an equals sign, joined to the short name of its option, or in the next
argument. It is settled when the next option begins or the arguments end; until then an argument
that is no option at all is complained about first.
-/

namespace ScriptCell.Timing

/-- Where a reader of arguments stands. -/
structure OptionReader where
  /-- What has been read. -/
  options : Options
  /-- The options that were given. -/
  seen : List Flag
  /-- An option that is not settled, with its value if that was read. -/
  pending : Option (Flag × Option String)
  /-- Whether two dashes ended the options. -/
  ended : Bool

namespace OptionReader

/-- A reader at the start of the arguments. -/
def start : OptionReader := ⟨.default, [], none, false⟩

/-- Reads the value of an option that takes a count. -/
def countOf (f : Flag) (value : String) : Except OptionError Nat :=
  (readCount value).mapError (.badCount value f)

/-- Gives an option its value. -/
def store (r : OptionReader) (f : Flag) (value : String) : Except OptionError OptionReader :=
  if f ≠ .case ∧ f ∈ r.seen then .error (.repeated f)
  else do
    let o := r.options
    let o' ← match f with
      | .case => pure { o with cases := o.cases ++ [value] }
      | .iterations => do pure { o with iterations := ← countOf f value }
      | .warmup => do pure { o with warmup := ← countOf f value }
      | .ops => do pure { o with ops := ← countOf f value }
      | .output => pure { o with output := some value }
      | .list | .help => pure o
    pure { r with options := o', seen := f :: r.seen }

/-- Settles the option that is not settled, if there is one. -/
def settle (r : OptionReader) : Except OptionError OptionReader :=
  match r.pending with
  | none => pure r
  | some (f, none) => .error (.missingValue f)
  | some (f, some value) => do
    let r ← r.store f value
    pure { r with pending := none }

/-- Reads an option that takes a value, which may be attached to it. -/
def valued (r : OptionReader) (f : Flag) (attached : Option String) :
    Except OptionError OptionReader := do
  let r ← r.settle
  match attached with
  | some value => r.store f value
  | none => pure { r with pending := some (f, none) }

/-- Reads an option that takes no value. -/
def switch (r : OptionReader) (f : Flag) : Except OptionError OptionReader := do
  let r ← r.settle
  if f ∈ r.seen then .error (.repeated f)
  else
    let o := r.options
    let o' := if f = .list then { o with list := true } else { o with help := true }
    pure { r with options := o', seen := f :: r.seen }

/-- Reads an argument behind two dashes. -/
def longArg (r : OptionReader) (cs : List Char) : Except OptionError OptionReader :=
  let name := String.ofList (cs.takeWhile (· ≠ '='))
  let attached := match cs.dropWhile (· ≠ '=') with
    | _ :: value => some (String.ofList value)
    | [] => none
  match Flag.all.find? fun f => f.long = name with
  | none => .error (.unexpected ("--" ++ name))
  | some f =>
    match f.valueName?, attached with
    | some _, _ => r.valued f attached
    | none, none => r.switch f
    | none, some value => .error (.unneededValue value f)

/-- Reads an argument behind one dash: its first character is the option, the rest its value. -/
def shortArg (r : OptionReader) (c : Char) (cs : List Char) : Except OptionError OptionReader :=
  match Flag.all.find? fun f => f.short? = some c with
  | none => .error (.unexpected ("-" ++ String.singleton c))
  | some f =>
    match f.valueName?, cs with
    | none, _ => r.switch f
    | some _, [] => r.valued f none
    | some _, '=' :: value => r.valued f (some (String.ofList value))
    | some _, value => r.valued f (some (String.ofList value))

/-- Reads an argument that is no option: the value that is awaited, or nothing that is expected. -/
def plainArg (r : OptionReader) (arg : String) : Except OptionError OptionReader :=
  match r.ended, r.pending with
  | false, some (f, none) => pure { r with pending := some (f, some arg) }
  | _, _ => .error (.unexpected arg)

/-- Reads one argument. -/
def step (r : OptionReader) (arg : String) : Except OptionError OptionReader :=
  if r.ended then r.plainArg arg
  else
    match arg.toList with
    | ['-', '-'] => pure { r with ended := true }
    | '-' :: '-' :: cs => r.longArg cs
    | '-' :: c :: cs => r.shortArg c cs
    | _ => r.plainArg arg

/-- Reads arguments to their end; a request for help ends them early. -/
def readAll (r : OptionReader) : List String → Except OptionError Options
  | [] => do pure (← r.settle).options
  | arg :: args => do
    let r ← r.step arg
    if r.options.help then pure r.options else r.readAll args

end OptionReader

/-- Reads the options. -/
def Options.ofArgs (args : List String) : Except OptionError Options :=
  OptionReader.start.readAll args

end ScriptCell.Timing
