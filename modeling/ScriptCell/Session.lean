import ScriptCell.Line.Rendering
import ScriptCell.Line.Diagnosis
import ScriptCell.Output
import ScriptCell.Text.Encoding

/-!
# Sessions

A session reads lines and answers each of them. Its only state is the result of the last line that
succeeded, which the word `_` stands for. A line that starts with a colon is a command. The session
ends at the command to quit, at the end of the input, or at a line that is not UTF-8.
-/

namespace ScriptCell

/-! ## Requests -/

/-- The commands of a session. -/
inductive SessionCommand where
  | quit
  | help
  /-- Show the last result. -/
  | last
  /-- Forget the last result. -/
  | reset
  deriving DecidableEq

/-- The spellings of the commands. -/
def SessionCommand.spellings : List (String × SessionCommand) :=
  [(":quit", .quit), (":q", .quit), (":exit", .quit), (":help", .help), (":h", .help),
    (":last", .last), (":reset", .reset)]

/-- What a trimmed line asks for. -/
inductive Request where
  /-- Nothing: the line is blank. -/
  | blank
  /-- A command. -/
  | command (c : SessionCommand)
  /-- A colon with something else behind it. -/
  | badCommand
  /-- Evaluation. -/
  | evaluate (text : String)
  deriving DecidableEq

/-- What a line asks for once it is trimmed. -/
def Request.ofLine (line : String) : Request :=
  let text := trim line
  match text.toList with
  | [] => .blank
  | ':' :: _ =>
    match SessionCommand.spellings.lookup text with
    | some c => .command c
    | none => .badCommand
  | _ => .evaluate text

/-! ## Replies -/

/-- The answer to a line. -/
structure Reply where
  /-- What is written. -/
  output : Output
  /-- The last result after the line. -/
  last : Value
  /-- Whether the session ends. -/
  stop : Bool
  deriving DecidableEq

namespace Session

/-- What is written when a session starts. -/
def banner : String :=
  Colour.green.paint (bold "Quill value REPL. Type :help for help, :quit to exit.") ++ "\n"

/-- What is written before a line is read. -/
def prompt : String := Colour.cyan.paint "quill> "

/-- What is written when a session is left. -/
def farewell : String := "Goodbye.\n"

/-- The answer to the command for help. -/
def helpText : String :=
  bold "Commands:" ++ "\n" ++
    "  " ++ Colour.yellow.paint ":help" ++ "  Show this help\n" ++
    "  " ++ Colour.yellow.paint ":last" ++
      "  Show the last result (also usable as '_')\n" ++
    "  " ++ Colour.yellow.paint ":reset" ++ "  Forget the last result\n" ++
    "  " ++ Colour.yellow.paint ":quit" ++ "  Exit the REPL\n" ++
    bold "Input:" ++ "\n" ++
    "  <a> <op> <b>   op is one of + - * / % < > <= >= == !=\n" ++
    "  neg <a>        unary minus\n" ++
    "  <a>            show the number, bool and string views of a\n" ++
    Colour.brightBlack.paint
      "Operands: undefined null true false 1.5 \"text\" 'text' word $variable" ++ "\n"

/-- Reads an operand of a session: the bare word `_` is the last result. -/
def readOperand (last : Value) (word : String) : Value :=
  if word = "_" then last else ScriptCell.readOperand word

/-- Answers a line to be evaluated. -/
def evaluate (last : Value) (text : String) : Reply :=
  match splitWords text with
  | .error e => ⟨.onErr (e.diagnose "Syntax error"), last, false⟩
  | .ok words =>
    match evalWords (readOperand last) words with
    | .error e => ⟨.onErr (e.diagnose "Error"), last, false⟩
    | .ok outcome => ⟨.onOut (outcome.render ++ "\n"), outcome.result, false⟩

/-- Carries out a command. -/
def obey (last : Value) : SessionCommand → Reply
  | .quit => ⟨.onOut farewell, last, true⟩
  | .help => ⟨.onOut helpText, last, false⟩
  | .last => ⟨.onOut ((Outcome.value last).render ++ "\n"), last, false⟩
  | .reset => ⟨.onOut (Colour.yellow.paint "State reset." ++ "\n"), .undefined, false⟩

/-- Answers what a line asks for. -/
def answer (last : Value) : Request → Reply
  | .blank => ⟨.empty, last, false⟩
  | .command c => obey last c
  | .badCommand => ⟨.onOut (Colour.red.paint "Unknown command. Type :help." ++ "\n"), last, false⟩
  | .evaluate text => evaluate last text

/-- Answers a line as it was read, with its end. -/
def reply (last : Value) (line : List UInt8) : Reply :=
  match decode? line with
  | none => ⟨.onOut "<input error>\n", last, true⟩
  | some text => answer last (.ofLine text)

/-! ## Whole sessions -/

/-- Answers lines until the session ends; before each a prompt is written. -/
def converse (last : Value) : List (List UInt8) → Output
  | [] => .onOut (prompt ++ "\n" ++ farewell)
  | line :: lines =>
    let r := reply last line
    let output := Output.onOut prompt ++ r.output
    if r.stop then output else output ++ converse r.last lines

/-- A whole session on the bytes of its input. -/
def run (input : List UInt8) : Output :=
  .onOut banner ++ converse .undefined (splitAfter 10 input)

end Session

end ScriptCell
