/-!
# Text without control sequences

Text may hold sequences that control a terminal: an escape character and what belongs to it. In
`visibleText` the sequences are taken out, and so are the control characters that show nothing; the
tabulator, the line feed, the form feed and the carriage return stay.

A sequence that such a character interrupts is not over: the text behind the character is shown, but
the next control character that shows nothing resumes the sequence.
-/

namespace ScriptCell

/-- What of a control sequence has been read. -/
inductive ControlSequence where
  /-- The escape character. -/
  | escape
  /-- Also intermediate characters, of which any number may come before the last character. -/
  | intermediate
  /-- An opening bracket, and perhaps parameters. -/
  | parameters
  /-- The start of a device control string. -/
  | deviceStart
  /-- Also parameters. -/
  | deviceParameters
  /-- Also intermediate characters. -/
  | deviceIntermediate
  /-- The start of a string that a string terminator ends; what comes before the text of a device
  control string is over, or malformed. -/
  | string
  /-- The start of an operating system command, which a bell ends. -/
  | command
  deriving DecidableEq

/-- Whether a character is a control character that moves the place of writing. -/
def isBlankControl (c : Char) : Bool := c = '\t' || c = '\n' || c = '\x0c' || c = '\r'

/-- Whether a character outside of control sequences is shown. -/
def isShown (c : Char) : Bool := isBlankControl c || (' ' ≤ c && c != '\x7f')

/-- Whether an octet of a character is the string terminator `9c`. -/
def holdsTerminator (c : Char) : Bool := (String.utf8EncodeChar c).contains 0x9c

namespace ControlSequence

/-- A sequence with one more character, or nothing if the character is its last one. -/
def next? : ControlSequence → Char → Option ControlSequence
  | .escape, c =>
    if c = '[' then some .parameters
    else if c = ']' then some .command
    else if c = 'P' then some .deviceStart
    else if c = 'X' ∨ c = '^' ∨ c = '_' then some .string
    else if '0' ≤ c ∧ c ≤ '~' then none
    else if ' ' ≤ c ∧ c ≤ '/' then some .intermediate
    else some .escape
  | .intermediate, c => if '0' ≤ c ∧ c ≤ '~' then none else some .intermediate
  | .parameters, c => if '@' ≤ c ∧ c ≤ '~' then none else some .parameters
  | .deviceStart, c =>
    if '@' ≤ c ∧ c ≤ '~' then some .string
    else if '0' ≤ c ∧ c ≤ '?' then some .deviceParameters
    else if ' ' ≤ c ∧ c ≤ '/' then some .deviceIntermediate
    else some .deviceStart
  | .deviceParameters, c =>
    if '<' ≤ c ∧ c ≤ '~' then some .string
    else if ' ' ≤ c ∧ c ≤ '/' then some .deviceIntermediate
    else some .deviceParameters
  | .deviceIntermediate, c => if '0' ≤ c ∧ c ≤ '~' then some .string else some .deviceIntermediate
  | .string, c => if holdsTerminator c then none else some .string
  | .command, c => if c = '\x07' then none else some .command

/-- Whether blank control characters inside a sequence are shown; strings of all sorts swallow
them. -/
def showsBlanks : ControlSequence → Bool
  | .escape | .intermediate | .parameters => true
  | .deviceStart | .deviceParameters | .deviceIntermediate | .string | .command => false

end ControlSequence

/-- Where a reader of text with control sequences stands. -/
inductive Showing where
  /-- Characters are shown; a sequence may have been interrupted. -/
  | shown (interrupted : Option ControlSequence)
  /-- Inside a sequence. -/
  | hidden (s : ControlSequence)
  deriving DecidableEq

namespace Showing

/-- Inside a sequence if there is one. -/
def resume : Option ControlSequence → Showing
  | none => .shown none
  | some s => .hidden s

/-- The characters that are shown. An escape character begins a sequence wherever it stands, and the
characters to cancel and to substitute end one. -/
def visible : Showing → List Char → List Char
  | _, [] => []
  | r, c :: cs =>
    if c = '\x1b' then visible (.hidden .escape) cs
    else if c = '\x18' ∨ c = '\x1a' then visible (.shown none) cs
    else
      match r with
      | .shown s =>
        if isShown c then c :: visible (.shown (if c ≤ '\x7f' then s else none)) cs
        else visible (resume s) cs
      | .hidden s =>
        if isBlankControl c && s.showsBlanks then c :: visible (.shown (some s)) cs
        else visible (resume (s.next? c)) cs

end Showing

/-- Text without control sequences and without control characters that show nothing. -/
def visibleText (s : String) : String := String.ofList ((Showing.shown none).visible s.toList)

end ScriptCell
