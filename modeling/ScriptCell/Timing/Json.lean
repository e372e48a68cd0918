import ScriptCell.Decimal.Layout

/-!
# JSON text

A `JsonValue` and its text, laid out over lines with two spaces for each level. A number that is not
finite has no JSON form and is written as null.
-/

namespace ScriptCell.Timing

/-- A JSON value. Whole counts and measured numbers are kept apart, as they are written
differently. -/
inductive JsonValue where
  | null
  /-- A whole number. -/
  | count (n : Nat)
  /-- A number of 64 bits. -/
  | real (x : Double)
  | text (s : String)
  | array (items : List JsonValue)
  /-- Fields in the order in which they are written. -/
  | object (fields : List (String × JsonValue))

/-- Measured numbers in a report: whole numbers end in `.0`, very small and very large numbers have
an exponent that always has a sign. -/
def reportLayout : Layout := ⟨some (-5, 16), true, true, .even, "inf"⟩

/-- A character inside a JSON string: quote, backslash and controls are escaped. -/
def jsonChar (c : Char) : List Char :=
  if c = '"' then ['\\', '"']
  else if c = '\\' then ['\\', '\\']
  else if c = '\n' then ['\\', 'n']
  else if c = '\r' then ['\\', 'r']
  else if c = '\t' then ['\\', 't']
  else if c = '\x08' then ['\\', 'b']
  else if c = '\x0c' then ['\\', 'f']
  else if c.toNat < 0x20 then
    ['\\', 'u', '0', '0', Nat.digitChar (c.toNat / 16), Nat.digitChar (c.toNat % 16)]
  else [c]

/-- A JSON string. -/
def jsonString (s : String) : String :=
  String.ofList ('"' :: s.toList.flatMap jsonChar ++ ['"'])

/-- The start of a line at a level. -/
def newline (level : Nat) : String := "\n" ++ String.ofList (List.replicate (2 * level) ' ')

namespace JsonValue

mutual

/-- The text of a value that starts at a level. -/
def write (level : Nat) : JsonValue → String
  | .null => "null"
  | .count n => Nat.repr n
  | .real x => if x.isFinite then reportLayout.text x else "null"
  | .text s => jsonString s
  | .array [] => "[]"
  | .array (v :: vs) =>
    "[" ++ newline (level + 1) ++ v.write (level + 1) ++ writeItems (level + 1) vs ++
      newline level ++ "]"
  | .object [] => "\x7b\x7d"
  | .object ((k, v) :: fields) =>
    "\x7b" ++ newline (level + 1) ++ jsonString k ++ ": " ++ v.write (level + 1) ++
      writeFields (level + 1) fields ++ newline level ++ "\x7d"

/-- The text of the items behind the first one. -/
def writeItems (level : Nat) : List JsonValue → String
  | [] => ""
  | v :: vs => "," ++ newline level ++ v.write level ++ writeItems level vs

/-- The text of the fields behind the first one. -/
def writeFields (level : Nat) : List (String × JsonValue) → String
  | [] => ""
  | (k, v) :: fields =>
    "," ++ newline level ++ jsonString k ++ ": " ++ v.write level ++ writeFields level fields

end

end JsonValue

end ScriptCell.Timing
