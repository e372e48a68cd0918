import ScriptCell.Timing.Run
import ScriptCell.Output.Stream
import Std.Time

/-!
# The program for timings

The outer layer of the timing runner: it measures against the clock of the machine, stamps the
report with the time and writes it to a file.
-/

namespace ScriptCell.Timing

/-- Measures cases one after another and shows each row as it is made. -/
def measureAll (n : Counts) (selected : List Case) : IO (Except Output (List Row)) := do
  let mut rows := #[]
  for c in selected do
    match ← measure IO.monoNanosNow (do pure c.run) n with
    | .error e => return .error (c.failure e)
    | .ok totals =>
      let row := c.row n totals
      IO.print row.line
      rows := rows.push row
  return .ok rows.toList

/-- The present time in a format. -/
def presentTime (format : String) : IO String := do
  let now ← Std.Time.Timestamp.now
  pure ((Std.Time.DateTime.ofTimestamp now Std.Time.TimeZone.ZoneRules.UTC).format format)

/-- The part of a path up to its last slash. -/
def parentPath (path : String) : String :=
  String.ofList (path.toList.reverse.dropWhile (· ≠ '/')).reverse

/-- Runs the program on its arguments. -/
def program (args : List String) : IO UInt32 := do
  match Plan.ofArgs args with
  | .stop exit => exit.leave
  | .measure selected n path =>
    match ← measureAll n selected with
    | .error complaint => Exit.leave ⟨1, complaint⟩
    | .ok rows =>
      let file ← presentTime "uuuu-MM-dd_HH-mm-ss'Z'"
      let path := path.getD ("benchmark/results/" ++ file ++ ".json")
      let parent := parentPath path
      if parent ≠ "" then IO.FS.createDirAll parent
      let timestamp ← presentTime "uuuu-MM-dd'T'HH:mm:ss'Z'"
      IO.FS.writeFile path (Report.mk timestamp version rows).text
      Exit.leave ⟨0, .onOut (savedLine path)⟩

end ScriptCell.Timing
