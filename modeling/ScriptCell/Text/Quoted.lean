import ScriptCell.Text.Printable
import ScriptCell.Text.GraphemeExtend

/-!
# Quoted text

Text between double quotes on one line, in which nothing is invisible: the double quote and the
backslash carry a backslash, the common controls have a letter, and a character that is not
printable, or that would be drawn onto its neighbour, is given by its code point. A single quote
stands for itself.

* `escapeChar_of_plain`: every other character stands for itself.
* `toList_quote`: the characters of quoted text.
-/

namespace ScriptCell

/-- The hexadecimal form `\u` of a code point, in braces. -/
def hexEscape (c : Char) : List Char :=
  ['\\', 'u', '\x7b'] ++ Nat.toDigits 16 c.toNat ++ ['\x7d']

/-- Whether a character is written as its code point: it is unprintable or extends the one
before. -/
def needsHexEscape (c : Char) : Bool := !isPrintable c || isGraphemeExtend c

/-- A character inside quoted text. -/
def escapeChar (c : Char) : List Char :=
  if c = '"' then ['\\', '"']
  else if c = '\\' then ['\\', '\\']
  else if c = '\n' then ['\\', 'n']
  else if c = '\r' then ['\\', 'r']
  else if c = '\t' then ['\\', 't']
  else if c = '\x00' then ['\\', '0']
  else if needsHexEscape c then hexEscape c
  else [c]

/-- Text between double quotes. -/
def quote (s : String) : String :=
  String.ofList ('"' :: s.toList.flatMap escapeChar ++ ['"'])

/-- Whether a character stands for itself in quoted text. -/
def isPlain (c : Char) : Bool := c != '"' && c != '\\' && !needsHexEscape c

/-- A plain character stands for itself. -/
theorem escapeChar_of_plain {c : Char} (h : isPlain c = true) : escapeChar c = [c] := by
  simp only [isPlain, Bool.and_eq_true, bne_iff_ne, ne_eq, Bool.not_eq_true'] at h
  obtain ⟨⟨hq, hb⟩, hx⟩ := h
  have hc : ∀ d, needsHexEscape d = true → c ≠ d := by
    intro d hd hcd
    rw [hcd, hd] at hx
    cases hx
  simp [escapeChar, hq, hb, hx, hc '\n' (by decide), hc '\r' (by decide), hc '\t' (by decide),
    hc '\x00' (by decide)]

/-- The characters of quoted text. -/
@[simp] theorem toList_quote (s : String) :
    (quote s).toList = '"' :: s.toList.flatMap escapeChar ++ ['"'] := by
  simp [quote]

end ScriptCell
