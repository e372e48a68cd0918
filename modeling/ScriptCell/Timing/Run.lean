import ScriptCell.Timing.Case
import ScriptCell.Timing.Measure
import ScriptCell.Timing.Options.Reader
import ScriptCell.Timing.Report
import ScriptCell.Output

/-!
# Running the timings

The runner reads its options, measures the selected cases one after another and writes a report. It
stops before any measurement when the options are refused, when only the table is wanted, or when
the names that are given select no case.
-/

namespace ScriptCell.Timing

/-! ## Texts -/

/-- The version that reports are about. -/
def version : String := "0.0.1-dev"

/-- The text for a request for help. -/
def helpText : String :=
  "\n".intercalate
    ["Time Quill value operators",
      "",
      "Usage: quill-bench [OPTIONS]",
      "",
      "Options:",
      "  -c, --case <CASES>             " ++
        "Specific case(s) to run (by name, e.g. add_numbers). If omitted, runs all cases",
      "  -n, --iterations <ITERATIONS>  Measured iterations per case [default: 10]",
      "  -w, --warmup <WARMUP>          Warmup iterations (not measured) [default: 2]",
      "      --ops <OPS>                Operations per iteration [default: 100000]",
      "  -o, --output <OUTPUT>          " ++
        "Output JSON file path; default: benchmark/results/<timestamp>.json",
      "      --list                     List cases and exit",
      "  -h, --help                     Print help",
      ""]

/-- The output for refused options. -/
def refusal (e : OptionError) : Output :=
  .onErr ("error: " ++ e.message ++ "\n\nFor more information, try '--help'.\n")

/-- The listing of the table. -/
def listing : Output := .onOut ("Cases:\n" ++ String.join (cases.map Case.listing))

/-! ## Plans -/

/-- What a run is to do, as far as its options say. -/
inductive Plan where
  /-- Nothing is measured. -/
  | stop (exit : Exit)
  /-- Cases are measured and a report is written. -/
  | measure (selected : List Case) (n : Counts) (path : Option String)

/-- The plan for options. -/
def Plan.ofOptions (o : Options) : Plan :=
  if o.help then .stop ⟨0, .onOut helpText⟩
  else if o.list then .stop ⟨0, listing⟩
  else
    let selected := selectCases o.cases
    if selected.isEmpty then
      .stop ⟨2, .onErr "No matching cases. Use --list to see available.\n"⟩
    else .measure selected ⟨o.iterations, o.warmup, o.ops⟩ o.output

/-- The plan for arguments. -/
def Plan.ofArgs (args : List String) : Plan :=
  match Options.ofArgs args with
  | .ok o => .ofOptions o
  | .error e => .stop ⟨2, refusal e⟩

/-! ## Measured rows and the whole run -/

/-- The row of a case that was measured, from the totals of its passes in nanoseconds. -/
def Case.row (c : Case) (n : Counts) (totals : List Nat) : Row :=
  .ofTimes c.name n.iterations n.ops (totals.map milliseconds)

/-- The complaint about a case that fails. -/
def Case.failure (c : Case) (e : Error) : Output := .onErr (c.name ++ ": " ++ e.message ++ "\n")

/-- The rows of cases up to the first that fails, and the complaint about that one. -/
def measureRows (totals : Case → Except Error (List Nat)) (n : Counts) :
    List Case → List Row × Option Output
  | [] => ([], none)
  | c :: cs =>
    match totals c with
    | .error e => ([], some (c.failure e))
    | .ok ts =>
      let (rows, failure) := measureRows totals n cs
      (c.row n ts :: rows, failure)

/-- The line that says where the report went. -/
def savedLine (path : String) : String := "\nSaved results to " ++ path ++ "\n"

/-- What a run leaves: its exit, and the path and text of its report if it wrote one. -/
structure RunResult where
  /-- The exit of the run. -/
  exit : Exit
  /-- Where the report goes, and what it says. -/
  report : Option (String × String)
  deriving DecidableEq

/-- Runs the program on its arguments, with totals for the cases, a time stamp, and a path for the
report if the options give none. -/
def run (totals : Counts → Case → Except Error (List Nat)) (timestamp defaultPath : String)
    (args : List String) : RunResult :=
  match Plan.ofArgs args with
  | .stop exit => ⟨exit, none⟩
  | .measure selected n path =>
    let (rows, failure) := measureRows (totals n) n selected
    let shown := Output.onOut (String.join (rows.map Row.line))
    match failure with
    | some complaint => ⟨⟨1, shown ++ complaint⟩, none⟩
    | none =>
      let path := path.getD defaultPath
      ⟨⟨0, shown ++ .onOut (savedLine path)⟩, some (path, (Report.mk timestamp version rows).text)⟩

/-- The totals of a case under a clock that stands still. -/
def stillTotals (n : Counts) (c : Case) : Except Error (List Nat) :=
  measure (m := Id) (pure 0) c.run n

end ScriptCell.Timing
