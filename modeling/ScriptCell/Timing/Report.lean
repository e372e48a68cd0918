import ScriptCell.Timing.Json
import ScriptCell.Timing.Summary

/-!
# Reports

A report names when it was made and the version it is about, and has one row for each case. It is
written as a JSON document; while cases run, each row is also shown as a line.
-/

namespace ScriptCell.Timing

/-- The row of a case. -/
structure Row where
  /-- The name of the case. -/
  name : String
  /-- The number of timed passes. -/
  iterations : Nat
  /-- The number of steps in a pass. -/
  ops : Nat
  /-- The times of the passes in milliseconds. -/
  summary : Summary
  /-- The average time of a step in nanoseconds. -/
  nanosPerOp : Double
  deriving DecidableEq

/-- A report. -/
structure Report where
  /-- When it was made. -/
  timestamp : String
  /-- The version it is about. -/
  version : String
  /-- The rows. -/
  rows : List Row
  deriving DecidableEq

/-- The row of a case whose timed passes took these times. -/
def Row.ofTimes (name : String) (iterations ops : Nat) (times : List Double) : Row :=
  let summary := Summary.ofSamples times
  let nanosPerOp :=
    if ops = 0 then .zero .double false
    else (summary.average.mul (.ofInt .double 1000000)).div (.ofInt .double ops)
  ⟨name, iterations, ops, summary, nanosPerOp⟩

/-- Text with spaces in front up to a width. -/
def padLeft (width : Nat) (s : String) : String :=
  String.ofList (List.replicate (width - s.length) ' ') ++ s

/-- The line that shows a row. -/
def Row.line (r : Row) : String :=
  padLeft 18 r.name ++ ": avg=" ++ r.summary.average.fixedText 3 ++
    "ms min=" ++ r.summary.least.fixedText 3 ++ "ms max=" ++ r.summary.greatest.fixedText 3 ++
    "ms | " ++ r.nanosPerOp.fixedText 1 ++ "ns/op\n"

/-- A row as JSON. -/
def Row.toJson (r : Row) : JsonValue :=
  .object
    [("name", .text r.name), ("iterations", .count r.iterations),
      ("ops_per_iteration", .count r.ops), ("avg_total_ms", .real r.summary.average),
      ("min_total_ms", .real r.summary.least), ("max_total_ms", .real r.summary.greatest),
      ("avg_ns_per_op", .real r.nanosPerOp)]

/-- A report as JSON. -/
def Report.toJson (r : Report) : JsonValue :=
  .object
    [("timestamp", .text r.timestamp), ("quill_version", .text r.version),
      ("benchmarks", .array (r.rows.map Row.toJson))]

/-- The document of a report. -/
def Report.text (r : Report) : String := r.toJson.write 0

end ScriptCell.Timing
