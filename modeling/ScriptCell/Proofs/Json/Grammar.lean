import ScriptCell.Proofs.Decimal.Grammar

/-!
# The grammar of JSON

`Json.Text cs v` says that the characters `cs` are a JSON text that stands for the value `v`: white
space may surround every token, a character of a string may be escaped in any of the three ways, and
a number has no plus sign, no needless zero in front and a digit on either side of a point. A number
stands for a decimal of any length; which number of a format that is, is not a matter of the
grammar.

The grammar has three nonterminals, `Json.Part`: a value, and what follows the opening bracket of an
array or of an object, or a comma in it, up to the closing bracket.
-/

namespace ScriptCell

/-- A JSON value as a text holds it. -/
inductive Json where
  | null
  | bool (b : Bool)
  | number (d : Decimal)
  | text (s : String)
  | array (items : List Json)
  /-- Fields in the order in which they stand. -/
  | object (fields : List (String × Json))

namespace Json

/-! ## Characters -/

/-- Whether a character is white space between tokens. -/
def isSpace (c : Char) : Bool := c == ' ' || c == '\n' || c == '\r' || c == '\t'

/-- White space and nothing else. -/
def IsSpace (cs : List Char) : Prop := ∀ c ∈ cs, isSpace c = true

theorem isSpace_nil : IsSpace [] := fun _ hc => nomatch hc

/-- The value of a hexadecimal digit of either case. -/
def hexDigit? (c : Char) : Option Nat :=
  if c.isDigit then some (c.toNat - '0'.toNat)
  else if 'a' ≤ c ∧ c ≤ 'f' then some (c.toNat - 'a'.toNat + 10)
  else if 'A' ≤ c ∧ c ≤ 'F' then some (c.toNat - 'A'.toNat + 10)
  else none

/-- The code unit of sixteen bits that four hexadecimal digits spell. -/
def unit? (a b c d : Char) : Option Nat := do
  pure (4096 * (← hexDigit? a) + 256 * (← hexDigit? b) + 16 * (← hexDigit? c) + (← hexDigit? d))

/-- The letters that stand for a character behind a backslash. -/
def shortEscapes : List (Char × Char) :=
  [('"', '"'), ('\\', '\\'), ('/', '/'), ('b', '\x08'), ('f', '\x0c'), ('n', '\n'), ('r', '\r'),
    ('t', '\t')]

/-- An escaped code unit. -/
inductive UnitText : List Char → Nat → Prop
  | mk {a b c d : Char} {u : Nat} (h : unit? a b c d = some u) : UnitText ['\\', 'u', a, b, c, d] u

/-- A high surrogate and a low one that follows it. -/
def IsPair (high low : Nat) : Prop := (0xd800 ≤ high ∧ high < 0xdc00) ∧ 0xdc00 ≤ low ∧ low < 0xe000

instance (high low : Nat) : Decidable (IsPair high low) := inferInstanceAs (Decidable (_ ∧ _))

/-- The character that a pair of surrogates stands for. -/
def pairChar (high low : Nat) : Char :=
  Char.ofNat (0x10000 + 0x400 * (high - 0xd800) + (low - 0xdc00))

/-- Whether a character may stand in a string as it is. -/
def IsPlain (c : Char) : Prop := 0x20 ≤ c.toNat ∧ c ≠ '"' ∧ c ≠ '\\'

instance (c : Char) : Decidable (IsPlain c) := inferInstanceAs (Decidable (_ ∧ _))

/-- A character of a string: itself, behind a backslash, or as one or two code units. -/
inductive CharText : List Char → Char → Prop
  | plain {c : Char} (hc : IsPlain c) : CharText [c] c
  | short {e c : Char} (h : (e, c) ∈ shortEscapes) : CharText ['\\', e] c
  | unit {cs : List Char} {u : Nat} (h : UnitText cs u) (hu : u.isValidChar) :
      CharText cs (Char.ofNat u)
  | pair {cs cs' : List Char} {high low : Nat} (h : UnitText cs high) (h' : UnitText cs' low)
      (hp : IsPair high low) : CharText (cs ++ cs') (pairChar high low)

/-- The characters of a string behind its opening quote, up to the closing one. -/
inductive StringText : List Char → List Char → Prop
  | close : StringText ['"'] []
  | char {cs cs' s : List Char} {c : Char} (h : CharText cs c) (h' : StringText cs' s) :
      StringText (cs ++ cs') (c :: s)

/-! ## Numbers and words -/

/-- The digits in front of the point: a zero alone, or digits that do not begin with one. -/
inductive WholeText : List Char → Prop
  | zero : WholeText ['0']
  | digits {c : Char} {cs : List Char} (hc : c ≠ '0') (h : IsDigits (c :: cs)) : WholeText (c :: cs)

/-- A number: an optional minus, digits, and optionally a point with digits behind it and an
exponent. -/
inductive NumberText : List Char → Decimal → Prop
  | mk (neg : Bool) {whole point fraction tail : List Char} {e : Int} (hw : WholeText whole)
      (hp : PointText point fraction) (hpoint : point ≠ [] → fraction ≠ [])
      (he : ExponentText tail e) :
      NumberText ((if neg then ['-'] else []) ++ (whole ++ (point ++ tail)))
        ⟨neg, Nat.ofDigitChars 10 (whole ++ fraction) 0, e - fraction.length⟩

/-- A value without quotes and brackets. -/
inductive AtomText : List Char → Json → Prop
  | null : AtomText "null".toList .null
  | truth : AtomText "true".toList (.bool true)
  | falsity : AtomText "false".toList (.bool false)
  | number {cs : List Char} {d : Decimal} (h : NumberText cs d) : AtomText cs (.number d)

/-! ## Values -/

/-- What a part of a text can be. -/
inductive Part where
  /-- A value. -/
  | value
  /-- Items of an array and its closing bracket. -/
  | items
  /-- Fields of an object and its closing bracket. -/
  | fields

/-- What a part stands for. -/
@[reducible] def Part.Meaning : Part → Type
  | .value => Json
  | .items => List Json
  | .fields => List (String × Json)

/-- The name of a field, with the colon and the white space around it. -/
inductive NameText : List Char → String → Prop
  | mk {front cs s mid back : List Char} (hf : IsSpace front) (hs : StringText cs s)
      (hm : IsSpace mid) (hb : IsSpace back) :
      NameText (front ++ '"' :: (cs ++ (mid ++ ':' :: back))) (String.ofList s)

/-- The characters of a part, and what they stand for. -/
inductive PartText : (p : Part) → List Char → p.Meaning → Prop
  | atom {cs : List Char} {v : Json} (h : AtomText cs v) : PartText .value cs v
  | text {cs s : List Char} (h : StringText cs s) :
      PartText .value ('"' :: cs) (.text (String.ofList s))
  | emptyArray {ws : List Char} (h : IsSpace ws) :
      PartText .value ('[' :: (ws ++ [']'])) (.array [])
  | array {cs : List Char} {vs : List Json} (h : PartText .items cs vs) :
      PartText .value ('[' :: cs) (.array vs)
  | emptyObject {ws : List Char} (h : IsSpace ws) :
      PartText .value ('\x7b' :: (ws ++ ['\x7d'])) (.object [])
  | object {cs : List Char} {fs : List (String × Json)} (h : PartText .fields cs fs) :
      PartText .value ('\x7b' :: cs) (.object fs)
  | lastItem {front cs back : List Char} {v : Json} (hf : IsSpace front) (h : PartText .value cs v)
      (hb : IsSpace back) : PartText .items (front ++ (cs ++ (back ++ [']']))) [v]
  | item {front cs back cs' : List Char} {v : Json} {vs : List Json} (hf : IsSpace front)
      (h : PartText .value cs v) (hb : IsSpace back) (h' : PartText .items cs' vs) :
      PartText .items (front ++ (cs ++ (back ++ ',' :: cs'))) (v :: vs)
  | lastField {name cs back : List Char} {k : String} {v : Json} (hk : NameText name k)
      (h : PartText .value cs v) (hb : IsSpace back) :
      PartText .fields (name ++ (cs ++ (back ++ ['\x7d']))) [(k, v)]
  | field {name cs back cs' : List Char} {k : String} {v : Json} {fs : List (String × Json)}
      (hk : NameText name k) (h : PartText .value cs v) (hb : IsSpace back)
      (h' : PartText .fields cs' fs) :
      PartText .fields (name ++ (cs ++ (back ++ ',' :: cs'))) ((k, v) :: fs)

/-- A JSON text: a value with white space around it. -/
inductive Text : List Char → Json → Prop
  | mk {front cs back : List Char} {v : Json} (hf : IsSpace front) (h : PartText .value cs v)
      (hb : IsSpace back) : Text (front ++ (cs ++ back)) v

end Json

end ScriptCell
