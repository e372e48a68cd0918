import ScriptCell.Output

/-!
# Writing output

The only functions that write to the streams of a process.
-/

namespace ScriptCell

/-- Writes output to the two streams. -/
def Output.write (o : Output) : IO Unit := do
  IO.print o.out
  IO.eprint o.err

/-- Writes the output of an exit and gives its code. -/
def Exit.leave (e : Exit) : IO UInt32 := do
  e.output.write
  pure e.code.toUInt32

end ScriptCell
