import ScriptCell.Text.CharClass

/-!
# White space

The characters with the property `White_Space`, and text without such characters at its ends.

* `trimChars_nil`, `trimChars_cons_blank`: how trimming starts.
-/

namespace ScriptCell

/-- The characters with the property `White_Space`. -/
def blankRanges : CharRanges :=
  [(0x9, 0xd), (0x20, 0x20), (0x85, 0x85), (0xa0, 0xa0), (0x1680, 0x1680), (0x2000, 0x200a),
    (0x2028, 0x2029), (0x202f, 0x202f), (0x205f, 0x205f), (0x3000, 0x3000)]

/-- Whether a character is white space. -/
def isBlank (c : Char) : Bool := blankRanges.contains c

/-- Characters without the white space in front. -/
def trimFront (cs : List Char) : List Char := cs.dropWhile isBlank

/-- Characters without the white space at the end. -/
def trimBack (cs : List Char) : List Char := (trimFront cs.reverse).reverse

/-- Characters without the white space at either end. -/
def trimChars (cs : List Char) : List Char := trimBack (trimFront cs)

/-- Text without the white space at either end. -/
def trim (s : String) : String := String.ofList (trimChars s.toList)

@[simp] theorem trimChars_nil : trimChars [] = [] := rfl

@[simp] theorem trimChars_cons_blank {c : Char} (h : isBlank c = true) (cs : List Char) :
    trimChars (c :: cs) = trimChars cs := by
  simp [trimChars, trimFront, h]

@[simp] theorem toList_trim (s : String) : (trim s).toList = trimChars s.toList := by
  simp [trim]

end ScriptCell
