import ScriptCell.Session
import ScriptCell.Batch

/-!
# The command line

Arguments name a command: a session, the usage text, one evaluation or a batch. Commands are read
before anything is done, so arguments that name none leave no output but the complaint.

A run depends on the outside only through the bytes of its input and through what a path leads to.
-/

namespace ScriptCell

/-! ## Arguments -/

/-- What a path leads to. -/
inductive PathContent where
  /-- Nothing. -/
  | missing
  /-- Something that cannot be read, with the reason. -/
  | unreadable (reason : String)
  /-- A file with these bytes. -/
  | file (bytes : List UInt8)
  deriving DecidableEq

/-- Why arguments name no command. -/
inductive UsageError where
  /-- The arguments of `eval` are not three. -/
  | evalArguments
  /-- The arguments of `neg` are not one. -/
  | negArguments
  /-- The arguments of `coerce` are not one. -/
  | coerceArguments
  /-- The arguments of `batch` are not one. -/
  | batchArguments
  /-- The first argument is no command. -/
  | unknownCommand (name : String)
  deriving DecidableEq

/-- The wording of a complaint about arguments. -/
def UsageError.message : UsageError → String
  | .evalArguments => "eval takes exactly three arguments: <a> <op> <b>"
  | .negArguments => "neg takes exactly one argument"
  | .coerceArguments => "coerce takes exactly one argument"
  | .batchArguments => "batch takes exactly one file path"
  | .unknownCommand name => "Unknown command '" ++ name ++ "'"

/-- A command. -/
inductive Command where
  /-- Hold a session. -/
  | session
  /-- Write the usage text. -/
  | usage
  /-- Evaluate words. -/
  | evaluate (words : List String)
  /-- Evaluate the lines of a file. -/
  | batch (path : String)
  deriving DecidableEq

namespace Command

/-- The usage text. -/
def usageText : String :=
  "\n".intercalate
    ["Usage:",
      "  quill                       start the REPL",
      "  quill eval <a> <op> <b>     apply one operator",
      "  quill neg <a>               unary minus",
      "  quill coerce <a>            show the number, bool and string views",
      "  quill batch <file>          evaluate one line per expression ('#' comments)"]

/-- The command that arguments name. -/
def ofArgs : List String → Except UsageError Command
  | [] => .ok .session
  | name :: args =>
    if name = "-h" ∨ name = "--help" ∨ name = "help" then .ok .usage
    else if name = "eval" then
      match args with
      | [_, _, _] => .ok (.evaluate args)
      | _ => .error .evalArguments
    else if name = "neg" then
      match args with
      | [word] => .ok (.evaluate ["neg", word])
      | _ => .error .negArguments
    else if name = "coerce" then
      match args with
      | [word] => .ok (.evaluate [word])
      | _ => .error .coerceArguments
    else if name = "batch" then
      match args with
      | [path] => .ok (.batch path)
      | _ => .error .batchArguments
    else .error (.unknownCommand name)

/-! ## Carrying out -/

/-- A complaint: the word `error`, a message, and a line end. -/
def complaint (message : String) : String :=
  bold (Colour.red.paint "error") ++ ": " ++ Colour.red.paint message ++ "\n"

/-- Evaluates words and shows the outcome. -/
def runWords (words : List String) : Exit :=
  match evalWords readOperand words with
  | .ok outcome => ⟨0, .onOut (outcome.render ++ "\n")⟩
  | .error e => ⟨1, .onErr (e.diagnose "Error")⟩

/-- The exit of a batch that ran to its end. -/
def batchExit (r : Batch.Result) : Exit :=
  if r.failures = 0 then ⟨0, r.output⟩
  else
    ⟨1, r.output ++
      .onErr (Colour.red.paint (Nat.repr r.failures ++ " line(s) failed") ++ "\n")⟩

/-- Evaluates what a path leads to. -/
def runBatch (path : String) (content : PathContent) : Exit :=
  let failed (reason : String) : Exit :=
    ⟨1, .onErr (complaint ("Failed to read " ++ path ++ ": " ++ reason))⟩
  match content with
  | .missing => ⟨1, .onErr (complaint ("File not found: " ++ path))⟩
  | .unreadable reason => failed reason
  | .file bytes =>
    match decode? bytes with
    | none => failed "stream did not contain valid UTF-8"
    | some text => batchExit (Batch.run text)

/-- Carries out a command, given what paths lead to and the bytes of the input. -/
def execute (read : String → PathContent) (input : List UInt8) : Command → Exit
  | .session => ⟨0, Session.run input⟩
  | .usage => ⟨0, .onOut (usageText ++ "\n")⟩
  | .evaluate words => runWords words
  | .batch path => runBatch path (read path)

/-- The exit for arguments that name no command. -/
def refuse (e : UsageError) : Exit :=
  ⟨2, .onErr (complaint e.message ++ Colour.brightBlack.paint usageText ++ "\n")⟩

/-- Runs the program on its arguments. -/
def run (read : String → PathContent) (input : List UInt8) (args : List String) : Exit :=
  match ofArgs args with
  | .ok c => c.execute read input
  | .error e => refuse e

end Command

end ScriptCell
