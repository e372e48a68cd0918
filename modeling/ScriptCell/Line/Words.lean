import ScriptCell.Text.Blank

/-!
# The words of a line

A line is read from left to right. White space separates words; a word that starts with a quote runs
to the next quote of the same sort and may hold white space, and any other word runs to the next
white space, whatever quotes are inside it. A line fails to split only at a quote that is never
closed.
-/

namespace ScriptCell

/-- Whether a character opens and closes quoted words. -/
def isQuote (c : Char) : Bool := c = '"' || c = '\''

/-- Where a reader of words stands: between words, or inside a word with its characters so far, the
last one first. -/
inductive Reading where
  /-- Between words. -/
  | between
  /-- Inside a bare word. -/
  | bare (word : List Char)
  /-- Inside a word that the quote `q` opened. -/
  | quoted (q : Char) (word : List Char)
  deriving DecidableEq

/-- Reads words; fails with the quote that is never closed. -/
def Reading.words : Reading → List Char → Except Char (List (List Char))
  | .between, [] => .ok []
  | .bare w, [] => .ok [w.reverse]
  | .quoted q _, [] => .error q
  | .between, c :: cs =>
    if isBlank c then words .between cs
    else if isQuote c then words (.quoted c [c]) cs
    else words (.bare [c]) cs
  | .bare w, c :: cs =>
    if isBlank c then (words .between cs).map (w.reverse :: ·) else words (.bare (c :: w)) cs
  | .quoted q w, c :: cs =>
    if c = q then (words .between cs).map ((c :: w).reverse :: ·) else words (.quoted q (c :: w)) cs

/-- The words of a line, with the quotes that surround them. -/
def splitChars (cs : List Char) : Except Char (List (List Char)) := Reading.between.words cs

@[simp] theorem splitChars_nil : splitChars [] = .ok [] := rfl

/-- White space in front of a line changes nothing. -/
theorem splitChars_cons_blank {c : Char} (h : isBlank c = true) (cs : List Char) :
    splitChars (c :: cs) = splitChars cs := by
  simp [splitChars, Reading.words, h]

end ScriptCell
