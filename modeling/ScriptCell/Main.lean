import ScriptCell.Command
import ScriptCell.Output.Stream

/-!
# The program for values

The outer layer: it reads arguments, input and files, writes what the library answers, and decides
nothing itself.
-/

namespace ScriptCell

/-- What a path leads to in the file system. -/
def readPath (path : String) : IO PathContent := do
  try
    let bytes ← IO.FS.readBinFile path
    pure (.file bytes.toList)
  catch e =>
    match e with
    | .noFileOrDirectory .. => pure .missing
    | .inappropriateType _ code _ =>
      pure (if code = 21 then .unreadable "Is a directory (os error 21)" else .missing)
    | e => pure (.unreadable (toString e))

/-- Reads the bytes of a line, with its end. -/
partial def readLineBytes (input : IO.FS.Stream) (line : ByteArray) : IO ByteArray := do
  let byte ← input.read 1
  if byte.isEmpty then pure line
  else
    let line := line ++ byte
    if byte.get! 0 = 10 then pure line else readLineBytes input line

/-- Holds a session: a prompt, a line, and its answer, until the session ends. -/
partial def holdSession (input : IO.FS.Stream) (last : Value) : IO Unit := do
  IO.print Session.prompt
  (← IO.getStdout).flush
  let line ← readLineBytes input .empty
  if line.isEmpty then IO.print ("\n" ++ Session.farewell)
  else
    let r := Session.reply last line.toList
    r.output.write
    if r.stop then pure () else holdSession input r.last

/-- The program for values. -/
def runCommand (args : List String) : IO UInt32 := do
  match Command.ofArgs args with
  | .error e => (Command.refuse e).leave
  | .ok .session =>
    IO.print Session.banner
    holdSession (← IO.getStdin) .undefined
    pure 0
  | .ok (.batch path) => do
    let content ← readPath path
    (Command.runBatch path content).leave
  | .ok c => (c.execute (fun _ => .missing) []).leave

end ScriptCell

/-- Runs the program for values. -/
def main (args : List String) : IO UInt32 := ScriptCell.runCommand args
