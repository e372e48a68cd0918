import ScriptCell.Proofs.Json.Grammar

/-!
# Reading JSON

`Json.ofChars?` reads a text. Its parts are read from the front, each function giving back what it
read and the characters behind it; the number that bounds the depth of the recursion is the length
of the text. It accepts exactly the grammar (`Json.ofChars?_eq_some_iff`), so a text stands for at
most one value (`Json.Text.unique`).
-/

namespace ScriptCell.Json

open Numeral (splitDigits splitFraction exponent?)

/-! ## The reader -/

/-- Passes over white space. -/
def skip (cs : List Char) : List Char := cs.dropWhile isSpace

/-- Reads an escaped code unit. -/
def escapedUnit? : List Char → Option (Nat × List Char)
  | '\\' :: 'u' :: a :: b :: c :: d :: cs => (unit? a b c d).map fun u => (u, cs)
  | _ => none

/-- Reads a character of a string. -/
def char? (cs : List Char) : Option (Char × List Char) :=
  match escapedUnit? cs with
  | some (u, cs) =>
    if u.isValidChar then some (Char.ofNat u, cs)
    else
      (escapedUnit? cs).bind fun (low, cs) =>
        if IsPair u low then some (pairChar u low, cs) else none
  | none =>
    match cs with
    | '\\' :: e :: cs => (shortEscapes.lookup e).map fun c => (c, cs)
    | c :: cs => if IsPlain c then some (c, cs) else none
    | [] => none

/-- Reads a string behind its opening quote. -/
def string? : Nat → List Char → Option (List Char × List Char)
  | 0, _ => none
  | n + 1, cs =>
    match cs with
    | '"' :: cs => some ([], cs)
    | cs => (char? cs).bind fun (c, cs) => (string? n cs).map fun (s, cs) => (c :: s, cs)

/-- Whether digits may stand in front of a point. -/
def isWhole : List Char → Bool
  | [] => false
  | c :: cs => cs.isEmpty || c != '0'

/-- Splits an optional minus off. -/
def splitMinus : List Char → Bool × List Char
  | '-' :: cs => (true, cs)
  | cs => (false, cs)

/-- Reads a number that is the whole text. -/
def number? (cs : List Char) : Option Decimal :=
  let (neg, body) := splitMinus cs
  let (whole, rest) := splitDigits body
  let (fraction, tail) := splitFraction rest
  if isWhole whole ∧ (fraction = [] → rest = tail) then
    (exponent? tail).map fun e =>
      ⟨neg, Nat.ofDigitChars 10 (whole ++ fraction) 0, e - fraction.length⟩
  else none

/-- Reads a value without quotes and brackets that is the whole text. -/
def atom? (cs : List Char) : Option Json :=
  if cs = "null".toList then some .null
  else if cs = "true".toList then some (.bool true)
  else if cs = "false".toList then some (.bool false)
  else (number? cs).map .number

/-- Whether a character can be one of a value without quotes and brackets. -/
def isAtomChar (c : Char) : Bool := c.isAlphanum || c == '-' || c == '+' || c == '.'

/-- Reads the name of a field up to its value. -/
def name? (n : Nat) (cs : List Char) : Option (String × List Char) :=
  match skip cs with
  | '"' :: cs =>
    (string? n cs).bind fun (s, cs) =>
      match skip cs with
      | ':' :: cs => some (String.ofList s, skip cs)
      | _ => none
  | _ => none

/-- Reads on behind an item or a field: the closing bracket, or a comma and what follows it. -/
def continued? {α : Type} (close : Char) (a : α) (more : List Char → Option (List α × List Char))
    (cs : List Char) : Option (List α × List Char) :=
  match skip cs with
  | c :: cs =>
    if c = close then some ([a], cs)
    else if c = ',' then (more cs).map fun (as, cs) => (a :: as, cs)
    else none
  | [] => none

/-- Reads on behind the bracket that opens an array or an object: the closing bracket, or what is in
them. -/
def bracketed? {α : Type} (close : Char) (more : List Char → Option (List α × List Char))
    (cs : List Char) :
    Option (List α × List Char) :=
  if (skip cs).head? = some close then some ([], (skip cs).tail) else more cs

/-- Reads a part. -/
def part? : Nat → (p : Part) → List Char → Option (p.Meaning × List Char)
  | 0, _, _ => none
  | n + 1, .value, '"' :: cs => (string? n cs).map fun (s, cs) => (.text (String.ofList s), cs)
  | n + 1, .value, '[' :: cs =>
    (bracketed? ']' (part? n .items) cs).map fun (vs, cs) => (.array vs, cs)
  | n + 1, .value, '\x7b' :: cs =>
    (bracketed? '\x7d' (part? n .fields) cs).map fun (fs, cs) => (.object fs, cs)
  | _ + 1, .value, cs => (atom? (cs.takeWhile isAtomChar)).map fun v => (v, cs.dropWhile isAtomChar)
  | n + 1, .items, cs =>
    (part? n .value (skip cs)).bind fun (v, cs) => continued? ']' v (part? n .items) cs
  | n + 1, .fields, cs =>
    (name? n cs).bind fun (k, cs) =>
      (part? n .value cs).bind fun (v, cs) => continued? '\x7d' (k, v) (part? n .fields) cs

/-- Reads a text. -/
def ofChars? (cs : List Char) : Option Json :=
  (part? cs.length .value (skip cs)).bind fun (v, cs) => if cs.all isSpace then some v else none

/-! ## White space -/

variable {cs cs' rest ws s : List Char} {c : Char}

theorem skip_append (hws : IsSpace ws) (hc : isSpace c = false) (rest : List Char) :
    skip (ws ++ c :: rest) = c :: rest := by
  rw [skip, List.dropWhile_append_of_pos hws, List.dropWhile_cons_of_neg (by rw [hc]; decide)]

/-- White space is passed over in front. -/
theorem exists_skip (cs : List Char) : ∃ ws rest, skip cs = rest ∧ IsSpace ws ∧ cs = ws ++ rest :=
  ⟨_, _, rfl, List.all_eq_true.1 List.all_takeWhile, List.takeWhile_append_dropWhile.symm⟩

/-! ## Strings -/

theorem escapedUnit?_append {u : Nat} (h : UnitText cs u) (rest : List Char) :
    escapedUnit? (cs ++ rest) = some (u, rest) := by
  cases h with
  | mk h => exact congrArg (Option.map fun u => (u, rest)) h

theorem exists_of_escapedUnit? {u : Nat} (h : escapedUnit? cs = some (u, rest)) :
    ∃ front, UnitText front u ∧ cs = front ++ rest := by
  unfold escapedUnit? at h
  split at h
  · obtain ⟨u', hu, heq⟩ := Option.map_eq_some_iff.1 h
    cases heq
    exact ⟨_, .mk hu, rfl⟩
  · cases h

theorem escapedUnit?_of_ne (hc : c ≠ '\\') (rest : List Char) :
    escapedUnit? (c :: rest) = none := by
  unfold escapedUnit?
  split
  · next h => exact absurd (List.cons.inj h).1 hc
  · rfl

theorem escapedUnit?_of_short {e : Char} (he : e ≠ 'u') (rest : List Char) :
    escapedUnit? ('\\' :: e :: rest) = none := by
  unfold escapedUnit?
  split
  · next h => exact absurd (List.cons.inj (List.cons.inj h).2).1 he
  · rfl

/-- Surrogates are no characters. -/
theorem IsPair.not_isValidChar {high low : Nat} (h : IsPair high low) : ¬ high.isValidChar := by
  obtain ⟨hhigh, -⟩ := h
  unfold Nat.isValidChar
  omega

/-- A letter behind a backslash is looked up. -/
theorem lookup_shortEscapes {e : Char} :
    shortEscapes.lookup e = some c ↔ (e, c) ∈ shortEscapes := by
  constructor
  · intro h
    obtain ⟨l, l', hl, -⟩ := List.lookup_eq_some_iff.1 h
    rw [hl]
    exact List.mem_append_right l (.head l')
  · have hall : ∀ p ∈ shortEscapes, shortEscapes.lookup p.1 = some p.2 := by decide
    exact hall (e, c)

theorem ne_of_mem_shortEscapes {e : Char} (h : (e, c) ∈ shortEscapes) : e ≠ 'u' := by
  have hall : ∀ p ∈ shortEscapes, p.1 ≠ 'u' := by decide
  exact hall (e, c) h

theorem char?_append (h : CharText cs c) (rest : List Char) :
    char? (cs ++ rest) = some (c, rest) := by
  unfold char?
  cases h with
  | plain hc =>
    simp only [List.singleton_append, escapedUnit?_of_ne hc.2.2]
    split
    · next h => exact absurd (List.cons.inj h).1 hc.2.2
    · next h =>
      cases h
      exact if_pos hc
    · next h => cases h
  | short h =>
    simp only [List.cons_append, List.nil_append, escapedUnit?_of_short (ne_of_mem_shortEscapes h),
      lookup_shortEscapes.2 h]
    rfl
  | unit h hu =>
    simp only [escapedUnit?_append h]
    exact if_pos hu
  | pair h h' hp =>
    simp only [List.append_assoc, escapedUnit?_append h, if_neg hp.not_isValidChar,
      escapedUnit?_append h']
    exact if_pos hp

theorem exists_of_char? (h : char? cs = some (c, rest)) :
    ∃ front, CharText front c ∧ cs = front ++ rest := by
  unfold char? at h
  split at h
  · next u cs' hu =>
    obtain ⟨front, hfront, rfl⟩ := exists_of_escapedUnit? hu
    split at h
    · next hvalid =>
      cases h
      exact ⟨front, .unit hfront hvalid, rfl⟩
    · obtain ⟨⟨low, cs''⟩, hlow, hpair⟩ := Option.bind_eq_some_iff.1 h
      obtain ⟨front', hfront', rfl⟩ := exists_of_escapedUnit? hlow
      simp only at hpair
      split at hpair
      · next hp =>
        obtain ⟨rfl, rfl⟩ := Prod.mk.inj (Option.some.inj hpair)
        exact ⟨front ++ front', .pair hfront hfront' hp, (List.append_assoc ..).symm⟩
      · cases hpair
  · split at h
    · obtain ⟨c', hc', heq⟩ := Option.map_eq_some_iff.1 h
      cases heq
      exact ⟨_, .short (lookup_shortEscapes.1 hc'), rfl⟩
    · split at h
      · next hc =>
        cases h
        exact ⟨_, .plain hc, rfl⟩
      · cases h
    · cases h

/-- A character of a string is not written as a quote alone. -/
theorem CharText.exists_cons (h : CharText cs c) : ∃ d ds, cs = d :: ds ∧ d ≠ '"' := by
  cases h with
  | plain hc => exact ⟨c, [], rfl, hc.2.1⟩
  | short => exact ⟨_, _, rfl, by decide⟩
  | unit h =>
    cases h
    exact ⟨_, _, rfl, by decide⟩
  | pair h =>
    cases h
    exact ⟨_, _, rfl, by decide⟩

theorem string?_of_ne {n : Nat} (hc : c ≠ '"') (cs : List Char) :
    string? (n + 1) (c :: cs) =
      (char? (c :: cs)).bind fun (c, cs) => (string? n cs).map fun (s, cs) => (c :: s, cs) := by
  rw [string?]
  exact fun _ h => hc (List.cons.inj h).1

theorem string?_append {n : Nat} (h : StringText cs s) (hn : cs.length ≤ n) (rest : List Char) :
    string? n (cs ++ rest) = some (s, rest) := by
  induction h generalizing n with
  | close =>
    obtain ⟨n, rfl⟩ : ∃ m, n = m + 1 := ⟨n - 1, by simp at hn; omega⟩
    rfl
  | @char cs cs' s c h _ ih =>
    obtain ⟨d, ds, rfl, hd⟩ := h.exists_cons
    rw [List.length_append, List.length_cons] at hn
    obtain ⟨n, rfl⟩ : ∃ m, n = m + 1 := ⟨n - 1, by omega⟩
    rw [List.append_assoc, List.cons_append, string?_of_ne hd, ← List.cons_append, char?_append h,
      Option.bind_some]
    exact congrArg (Option.map _) (ih (by omega))

theorem exists_of_string? {n : Nat} (h : string? n cs = some (s, rest)) :
    ∃ front, StringText front s ∧ cs = front ++ rest := by
  induction n generalizing cs s with
  | zero => cases h
  | succ n ih =>
    match cs with
    | [] => cases h
    | c :: cs =>
      by_cases hc : c = '"'
      · subst hc
        obtain ⟨rfl, rfl⟩ := Prod.mk.inj (Option.some.inj h)
        exact ⟨_, .close, rfl⟩
      · rw [string?_of_ne hc] at h
        obtain ⟨⟨c, cs'⟩, hchar, hs⟩ := Option.bind_eq_some_iff.1 h
        obtain ⟨⟨s', cs''⟩, hs', heq⟩ := Option.map_eq_some_iff.1 hs
        cases heq
        obtain ⟨front, hfront, hcs⟩ := exists_of_char? hchar
        obtain ⟨front', hfront', rfl⟩ := ih hs'
        exact ⟨front ++ front', .char hfront hfront', by rw [hcs, List.append_assoc]⟩

/-! ## Numbers and words -/

theorem wholeText_iff : WholeText cs ↔ IsDigits cs ∧ isWhole cs = true := by
  constructor
  · intro h
    cases h with
    | zero => exact ⟨List.forall_mem_singleton.2 rfl, rfl⟩
    | digits hc h => exact ⟨h, by simp [isWhole, hc]⟩
  · rintro ⟨hd, hw⟩
    match cs with
    | [] => cases hw
    | c :: cs =>
      by_cases hc : c = '0'
      · subst hc
        obtain rfl : cs = [] := by simpa [isWhole] using hw
        exact .zero
      · exact .digits hc hd

theorem WholeText.exists_cons (h : WholeText cs) : ∃ c ds, cs = c :: ds ∧ c.isDigit = true := by
  cases h with
  | zero => exact ⟨_, _, rfl, rfl⟩
  | digits _ h => exact ⟨_, _, rfl, h _ (.head _)⟩

theorem splitMinus_append (neg : Bool) (hw : WholeText cs) (rest : List Char) :
    splitMinus ((if neg then ['-'] else []) ++ (cs ++ rest)) = (neg, cs ++ rest) := by
  cases neg with
  | true => rfl
  | false =>
    obtain ⟨c, ds, rfl, hc⟩ := hw.exists_cons
    unfold splitMinus
    split
    · next h => exact absurd (List.cons.inj h).1 (Numeral.not_sign_of_isDigit hc).1
    · rfl

/-- An optional minus is split off in front. -/
theorem exists_splitMinus (cs : List Char) :
    ∃ neg body, splitMinus cs = (neg, body) ∧ cs = (if neg then ['-'] else []) ++ body := by
  unfold splitMinus
  split
  · next cs => exact ⟨true, cs, rfl, rfl⟩
  · exact ⟨false, cs, rfl, rfl⟩

theorem number?_eq_some_iff {d : Decimal} : number? cs = some d ↔ NumberText cs d := by
  constructor
  · intro h
    obtain ⟨neg, body, hminus, rfl⟩ := exists_splitMinus cs
    obtain ⟨whole, rest, hwhole, hw, rfl⟩ := Numeral.exists_splitDigits body
    obtain ⟨point, fraction, tail, hpoint, hp, rfl⟩ := Numeral.exists_splitFraction rest
    simp only [number?, hminus, hwhole, hpoint] at h
    split at h
    · next hif =>
      obtain ⟨e, he, rfl⟩ := Option.map_eq_some_iff.1 h
      refine .mk neg (wholeText_iff.2 ⟨hw, hif.1⟩) hp (fun hne hnil => hne ?_)
        (Numeral.exponent?_eq_some_iff.1 he)
      exact List.append_left_eq_self.1 (hif.2 hnil)
    · cases h
  · intro h
    cases h with
    | @mk neg whole point fraction tail e hw hp hpoint he =>
      have hif : isWhole whole = true ∧ (fraction = [] → point ++ tail = tail) := by
        refine ⟨(wholeText_iff.1 hw).2, fun hnil => ?_⟩
        rw [Classical.byContradiction fun hne => hpoint hne hnil, List.nil_append]
      simp only [number?, splitMinus_append neg hw,
        Numeral.splitDigits_append (wholeText_iff.1 hw).1 (hp.endsDigits he.endsDigits),
        Numeral.splitFraction_append hp he, if_pos hif, Numeral.exponent?_eq_some_iff.2 he]
      rfl

/-- Number text of JSON is number text. -/
theorem NumberText.numeralText {d : Decimal} (h : NumberText cs d) :
    NumeralText cs (.decimal d) := by
  cases h with
  | mk neg hw hp _ he =>
    have hsign : SignText (if neg then ['-'] else []) neg := by
      cases neg
      · exact .none
      · exact .minus
    obtain ⟨c, ds, rfl, -⟩ := hw.exists_cons
    exact .decimal hsign (.mk (wholeText_iff.1 hw).1 hp nofun he)

theorem atom?_eq_some_iff {v : Json} : atom? cs = some v ↔ AtomText cs v := by
  constructor
  · intro h
    unfold atom? at h
    split at h
    · next hcs =>
      cases h
      exact hcs ▸ .null
    split at h
    · next hcs =>
      cases h
      exact hcs ▸ .truth
    split at h
    · next hcs =>
      cases h
      exact hcs ▸ .falsity
    obtain ⟨d, hd, rfl⟩ := Option.map_eq_some_iff.1 h
    exact .number (number?_eq_some_iff.1 hd)
  · intro h
    cases h with
    | null => rfl
    | truth => rfl
    | falsity => rfl
    | number h =>
      have hword (w : String) (hw : number? w.toList = none) : cs ≠ w.toList := by
        rintro rfl
        exact nomatch hw.symm.trans (number?_eq_some_iff.2 h)
      rw [atom?, if_neg (hword "null" (by decide)), if_neg (hword "true" (by decide)),
        if_neg (hword "false" (by decide)), number?_eq_some_iff.2 h]
      rfl

theorem isAtomChar_of_isDigit (h : c.isDigit = true) : isAtomChar c = true := by
  simp [isAtomChar, Char.isAlphanum, h]

theorem isAtomChar_of_isSpace (h : isSpace c = true) : isAtomChar c = false := by
  simp only [isSpace, Bool.or_eq_true, beq_iff_eq] at h
  rcases h with ((rfl | rfl) | rfl) | rfl <;> rfl

theorem ne_of_isAtomChar {d : Char} (hc : isAtomChar c = true) (hd : isAtomChar d = false) :
    c ≠ d := by
  rintro rfl
  exact absurd (hc.symm.trans hd) (by decide)

theorem NumberText.isAtomChar {d : Decimal} (h : NumberText cs d) :
    ∀ c ∈ cs, isAtomChar c = true := by
  have hdigits {ds : List Char} (hd : IsDigits ds) : ∀ c ∈ ds, Json.isAtomChar c = true :=
    fun c hc => isAtomChar_of_isDigit (hd c hc)
  cases h with
  | @mk neg whole point fraction tail e hw hp _ he =>
    have hsign : ∀ c ∈ (if neg then ['-'] else []), Json.isAtomChar c = true := by
      cases neg <;> exact List.all_eq_true.1 rfl
    have hpoint : ∀ c ∈ point, Json.isAtomChar c = true := by
      cases hp with
      | none => nofun
      | some hd => exact List.forall_mem_cons.2 ⟨rfl, hdigits hd⟩
    have htail : ∀ c ∈ tail, Json.isAtomChar c = true := by
      cases he with
      | none => nofun
      | @some e sign ds neg he hs hd =>
        have hesign : ∀ c ∈ sign, Json.isAtomChar c = true := by
          cases hs <;> exact List.all_eq_true.1 rfl
        refine List.forall_mem_cons.2 ⟨?_, List.forall_mem_append.2 ⟨hesign, hdigits hd⟩⟩
        rcases he with rfl | rfl <;> rfl
    exact List.forall_mem_append.2 ⟨hsign, List.forall_mem_append.2 ⟨hdigits (wholeText_iff.1 hw).1,
      List.forall_mem_append.2 ⟨hpoint, htail⟩⟩⟩

theorem AtomText.isAtomChar {v : Json} (h : AtomText cs v) : ∀ c ∈ cs, isAtomChar c = true := by
  cases h with
  | null | truth | falsity => exact List.all_eq_true.1 rfl
  | number h => exact h.isAtomChar

theorem AtomText.exists_cons {v : Json} (h : AtomText cs v) : ∃ c ds, cs = c :: ds := by
  cases h with
  | null => exact ⟨_, _, rfl⟩
  | truth => exact ⟨_, _, rfl⟩
  | falsity => exact ⟨_, _, rfl⟩
  | number h =>
    cases h with
    | mk neg hw =>
      obtain ⟨c, ds, rfl, -⟩ := hw.exists_cons
      cases neg <;> exact ⟨_, _, rfl⟩

/-- A text in front of which a value without quotes and brackets ends. -/
def EndsAtom (cs : List Char) : Prop := ∀ c ∈ cs.head?, isAtomChar c = false

/-- White space and punctuation end such a value. -/
theorem endsAtom_append (hws : IsSpace ws) (hc : isAtomChar c = false) (rest : List Char) :
    EndsAtom (ws ++ c :: rest) := by
  cases ws with
  | nil =>
    rintro _ ⟨⟩
    exact hc
  | cons d ds =>
    rintro _ ⟨⟩
    exact isAtomChar_of_isSpace (hws d (.head _))

theorem takeWhile_isAtomChar_append {v : Json} (h : AtomText cs v) (hrest : EndsAtom rest) :
    (cs ++ rest).takeWhile isAtomChar = cs ∧ (cs ++ rest).dropWhile isAtomChar = rest := by
  rw [List.takeWhile_append_of_pos h.isAtomChar, List.dropWhile_append_of_pos h.isAtomChar]
  cases rest with
  | nil => exact ⟨List.append_nil cs, rfl⟩
  | cons c rest =>
    have hc : ¬ isAtomChar c = true := by rw [hrest c rfl]; decide
    rw [List.takeWhile_cons_of_neg hc, List.dropWhile_cons_of_neg hc, List.append_nil]
    exact ⟨rfl, rfl⟩

/-! ## Values -/

/-- A value begins with a character that is neither white space nor a closing bracket. -/
theorem PartText.exists_cons {v : Json} (h : PartText .value cs v) :
    ∃ c ds, cs = c :: ds ∧ isSpace c = false ∧ c ≠ ']' ∧ c ≠ '\x7d' := by
  cases h with
  | atom h =>
    obtain ⟨c, ds, rfl⟩ := h.exists_cons
    have hc := h.isAtomChar c (.head _)
    refine ⟨c, ds, rfl, ?_, ne_of_isAtomChar hc rfl, ne_of_isAtomChar hc rfl⟩
    rw [Bool.eq_false_iff]
    exact fun hspace => ne_of_isAtomChar hc (isAtomChar_of_isSpace hspace) rfl
  | text | emptyArray | array | emptyObject | object => exact ⟨_, _, rfl, rfl, by decide, by decide⟩

/-! ### Names -/

theorem name?_append {n : Nat} {k : String} (h : NameText cs k) (hn : cs.length ≤ n)
    (hc : isSpace c = false) (rest : List Char) :
    name? n (cs ++ c :: rest) = some (k, c :: rest) := by
  cases h with
  | @mk front cs s mid back hf hs hm hb =>
    have hlength : cs.length ≤ n := by
      simp only [List.length_append, List.length_cons] at hn
      omega
    have hopen : skip (front ++ '"' :: (cs ++ (mid ++ ':' :: (back ++ c :: rest)))) =
        '"' :: (cs ++ (mid ++ ':' :: (back ++ c :: rest))) := skip_append hf rfl _
    have hcolon : skip (mid ++ ':' :: (back ++ c :: rest)) = ':' :: (back ++ c :: rest) :=
      skip_append hm rfl _
    simp only [name?, List.append_assoc, List.cons_append, hopen, string?_append hs hlength,
      Option.bind_some, hcolon, skip_append hb hc]

theorem exists_of_name? {n : Nat} {k : String} (h : name? n cs = some (k, rest)) :
    ∃ front, NameText front k ∧ cs = front ++ rest := by
  obtain ⟨front, tail, hskip, hf, rfl⟩ := exists_skip cs
  simp only [name?, hskip] at h
  split at h
  · obtain ⟨⟨s, tail⟩, hs, hrest⟩ := Option.bind_eq_some_iff.1 h
    obtain ⟨body, hbody, rfl⟩ := exists_of_string? hs
    obtain ⟨mid, tail, hmid, hm, rfl⟩ := exists_skip tail
    simp only [hmid] at hrest
    split at hrest
    · next tail =>
      obtain ⟨back, tail, hback, hb, rfl⟩ := exists_skip tail
      obtain ⟨rfl, rfl⟩ := Prod.mk.inj (Option.some.inj hrest)
      exact ⟨_, .mk hf hbody hm hb, by simp only [hback, List.append_assoc, List.cons_append]⟩
    · cases hrest
  · cases h

/-! ### Between brackets -/

variable {α : Type} {a : α} {as : List α} {more : List Char → Option (List α × List Char)}
    {close : Char}

theorem continued?_close (a : α) (more : List Char → Option (List α × List Char)) (hb : IsSpace ws)
    (hclose : isSpace close = false) (rest : List Char) :
    continued? close a more (ws ++ close :: rest) = some ([a], rest) := by
  simp only [continued?, skip_append hb hclose, if_true]

theorem continued?_comma (a : α) (hb : IsSpace ws) (hclose : ',' ≠ close)
    (hmore : more cs = some (as, rest)) :
    continued? close a more (ws ++ ',' :: cs) = some (a :: as, rest) := by
  have hcomma : isSpace ',' = false := rfl
  simp only [continued?, skip_append hb hcomma, if_neg hclose, if_true, hmore]
  rfl

theorem exists_of_continued? (h : continued? close a more cs = some (as, rest)) :
    ∃ ws, IsSpace ws ∧ (cs = ws ++ close :: rest ∧ as = [a] ∨
      ∃ cs' as', cs = ws ++ ',' :: cs' ∧ more cs' = some (as', rest) ∧ as = a :: as') := by
  obtain ⟨ws, tail, hskip, hws, rfl⟩ := exists_skip cs
  refine ⟨ws, hws, ?_⟩
  simp only [continued?, hskip] at h
  split at h
  · next c cs' =>
    split at h
    · next hc =>
      cases h
      exact .inl ⟨by rw [hc], rfl⟩
    split at h
    · next hc =>
      obtain ⟨⟨as', cs''⟩, has, heq⟩ := Option.map_eq_some_iff.1 h
      cases heq
      exact .inr ⟨cs', as', by rw [hc], has, rfl⟩
    · cases h
  · cases h

theorem bracketed?_close (more : List Char → Option (List α × List Char)) (hws : IsSpace ws)
    (hclose : isSpace close = false) (rest : List Char) :
    bracketed? close more (ws ++ close :: rest) = some ([], rest) := by
  rw [bracketed?, skip_append hws hclose]
  exact if_pos rfl

theorem bracketed?_of_ne (h : (skip cs).head? ≠ some close) : bracketed? close more cs = more cs :=
  if_neg h

theorem exists_of_bracketed? (h : bracketed? close more cs = some (as, rest)) :
    (∃ ws, IsSpace ws ∧ cs = ws ++ close :: rest ∧ as = []) ∨ more cs = some (as, rest) := by
  unfold bracketed? at h
  split at h
  · next hclose =>
    obtain ⟨ws, tail, hskip, hws, rfl⟩ := exists_skip cs
    rw [hskip] at h hclose
    obtain ⟨tail, rfl⟩ := List.head?_eq_some_iff.1 hclose
    cases h
    exact .inl ⟨ws, hws, rfl, rfl⟩
  · exact .inr h

/-! ### Parts -/

theorem part?_atom (n : Nat) (hc : c ≠ '"' ∧ c ≠ '[' ∧ c ≠ '\x7b') (cs : List Char) :
    part? (n + 1) .value (c :: cs) =
      (atom? ((c :: cs).takeWhile isAtomChar)).map fun v =>
        (v, (c :: cs).dropWhile isAtomChar) := by
  rw [part?]
  · exact fun _ h => hc.1 (List.cons.inj h).1
  · exact fun _ h => hc.2.1 (List.cons.inj h).1
  · exact fun _ h => hc.2.2 (List.cons.inj h).1

/-- Items do not begin with the bracket that closes an array. -/
theorem PartText.head?_items_ne {vs : List Json} (h : PartText .items cs vs) (rest : List Char) :
    (skip (cs ++ rest)).head? ≠ some ']' := by
  cases h with
  | lastItem hf h | item hf h =>
    obtain ⟨c, ds, rfl, hc, hne, -⟩ := h.exists_cons
    simp only [List.append_assoc, List.cons_append, skip_append hf hc]
    exact fun heq => hne (Option.some.inj heq)

/-- Fields do not begin with the bracket that closes an object. -/
theorem PartText.head?_fields_ne {fs : List (String × Json)} (h : PartText .fields cs fs)
    (rest : List Char) :
    (skip (cs ++ rest)).head? ≠ some '\x7d' := by
  cases h with
  | lastField hk | field hk =>
    cases hk with
    | mk hf =>
      have hquote : isSpace '"' = false := rfl
      simp only [List.append_assoc, List.cons_append, skip_append hf hquote]
      exact fun heq => absurd (Option.some.inj heq) (by decide)

/-- No part is empty. -/
theorem PartText.ne_nil {p : Part} {v : p.Meaning} (h : PartText p cs v) : cs ≠ [] := by
  cases h with
  | atom h =>
    obtain ⟨c, ds, rfl⟩ := h.exists_cons
    exact List.cons_ne_nil c ds
  | text | emptyArray | array | emptyObject | object => exact List.cons_ne_nil _ _
  | lastItem | item | lastField | field => simp

/-- **What is written by the grammar is read**, whatever stands behind it. -/
theorem part?_append {p : Part} {v : p.Meaning} {n : Nat} (h : PartText p cs v) (hn : cs.length ≤ n)
    (hrest : p = .value → EndsAtom rest) : part? n p (cs ++ rest) = some (v, rest) := by
  induction n generalizing p cs rest with
  | zero => exact absurd (List.length_eq_zero_iff.1 (Nat.le_zero.1 hn)) h.ne_nil
  | succ n ih =>
    cases h with
    | atom h =>
      obtain ⟨c, ds, rfl⟩ := h.exists_cons
      obtain ⟨htake, hdrop⟩ := takeWhile_isAtomChar_append h (hrest rfl)
      have hc := h.isAtomChar c (.head _)
      rw [List.cons_append,
        part?_atom n ⟨ne_of_isAtomChar hc rfl, ne_of_isAtomChar hc rfl, ne_of_isAtomChar hc rfl⟩,
        ← List.cons_append, htake, hdrop, atom?_eq_some_iff.2 h]
      rfl
    | text h =>
      rw [List.cons_append, part?, string?_append h (Nat.le_of_succ_le_succ hn)]
      rfl
    | emptyArray h =>
      rw [List.cons_append, List.append_assoc, part?]
      exact congrArg (Option.map _) (bracketed?_close _ h rfl rest)
    | array h =>
      rw [List.cons_append, part?, bracketed?_of_ne (h.head?_items_ne rest),
        ih h (Nat.le_of_succ_le_succ hn) nofun]
      rfl
    | emptyObject h =>
      rw [List.cons_append, List.append_assoc, part?]
      exact congrArg (Option.map _) (bracketed?_close _ h rfl rest)
    | object h =>
      rw [List.cons_append, part?, bracketed?_of_ne (h.head?_fields_ne rest),
        ih h (Nat.le_of_succ_le_succ hn) nofun]
      rfl
    | @lastItem front cs back v hf h hb =>
      obtain ⟨c, ds, rfl, hc, -⟩ := h.exists_cons
      simp only [List.length_append, List.length_cons, List.length_nil] at hn
      have hread := ih h (by simp only [List.length_cons]; omega) fun _ =>
        endsAtom_append hb (c := ']') rfl rest
      simp only [List.append_assoc, List.cons_append, List.nil_append] at hread ⊢
      rw [part?, skip_append hf hc, hread]
      exact continued?_close v _ hb rfl rest
    | @item front cs back cs' v vs hf h hb h' =>
      obtain ⟨c, ds, rfl, hc, -⟩ := h.exists_cons
      simp only [List.length_append, List.length_cons] at hn
      have hread := ih h (by simp only [List.length_cons]; omega) fun _ =>
        endsAtom_append hb (c := ',') rfl (cs' ++ rest)
      have hmore : part? n .items (cs' ++ rest) = some (vs, rest) := ih h' (by omega) nofun
      simp only [List.append_assoc, List.cons_append] at hread ⊢
      rw [part?, skip_append hf hc, hread]
      exact continued?_comma v hb (by decide) hmore
    | @lastField name cs back k v hk h hb =>
      obtain ⟨c, ds, rfl, hc, -⟩ := h.exists_cons
      simp only [List.length_append, List.length_cons, List.length_nil] at hn
      have hread := ih h (by simp only [List.length_cons]; omega) fun _ =>
        endsAtom_append hb (c := '\x7d') rfl rest
      simp only [List.append_assoc, List.cons_append, List.nil_append] at hread ⊢
      rw [part?, name?_append hk (by omega) hc]
      simp only [Option.bind_some, hread]
      exact continued?_close (k, v) _ hb rfl rest
    | @field name cs back cs' k v fs hk h hb h' =>
      obtain ⟨c, ds, rfl, hc, -⟩ := h.exists_cons
      simp only [List.length_append, List.length_cons] at hn
      have hread := ih h (by simp only [List.length_cons]; omega) fun _ =>
        endsAtom_append hb (c := ',') rfl (cs' ++ rest)
      have hmore : part? n .fields (cs' ++ rest) = some (fs, rest) := ih h' (by omega) nofun
      simp only [List.append_assoc, List.cons_append] at hread ⊢
      rw [part?, name?_append hk (by omega) hc]
      simp only [Option.bind_some, hread]
      exact continued?_comma (k, v) hb (by decide) hmore

/-- What is read is written by the grammar. -/
theorem exists_of_part? {p : Part} {v : p.Meaning} {n : Nat} (h : part? n p cs = some (v, rest)) :
    ∃ front, PartText p front v ∧ cs = front ++ rest := by
  induction n generalizing p cs rest with
  | zero => cases h
  | succ n ih =>
    match p with
    | .value =>
      match cs with
      | [] => cases h
      | c :: cs =>
        by_cases hquote : c = '"'
        · subst hquote
          obtain ⟨⟨s, cs'⟩, hs, heq⟩ := Option.map_eq_some_iff.1 h
          cases heq
          obtain ⟨front, hfront, hcs⟩ := exists_of_string? hs
          exact ⟨'"' :: front, .text hfront, congrArg ('"' :: ·) hcs⟩
        by_cases hbracket : c = '['
        · subst hbracket
          obtain ⟨⟨vs, cs'⟩, hvs, heq⟩ := Option.map_eq_some_iff.1 h
          cases heq
          rcases exists_of_bracketed? hvs with ⟨ws, hws, rfl, rfl⟩ | hitems
          · exact ⟨_, .emptyArray hws, by simp⟩
          · obtain ⟨front, hfront, hcs⟩ := ih hitems
            exact ⟨'[' :: front, .array hfront, congrArg ('[' :: ·) hcs⟩
        by_cases hbrace : c = '\x7b'
        · subst hbrace
          obtain ⟨⟨fs, cs'⟩, hfs, heq⟩ := Option.map_eq_some_iff.1 h
          cases heq
          rcases exists_of_bracketed? hfs with ⟨ws, hws, rfl, rfl⟩ | hfields
          · exact ⟨_, .emptyObject hws, by simp⟩
          · obtain ⟨front, hfront, hcs⟩ := ih hfields
            exact ⟨'\x7b' :: front, .object hfront, congrArg ('\x7b' :: ·) hcs⟩
        rw [part?_atom n ⟨hquote, hbracket, hbrace⟩] at h
        obtain ⟨v', hv, heq⟩ := Option.map_eq_some_iff.1 h
        cases heq
        exact ⟨_, .atom (atom?_eq_some_iff.1 hv), List.takeWhile_append_dropWhile.symm⟩
    | .items =>
      obtain ⟨front, tail, hskip, hf, rfl⟩ := exists_skip cs
      rw [part?, hskip] at h
      obtain ⟨⟨v', cs'⟩, hv, hmore⟩ := Option.bind_eq_some_iff.1 h
      obtain ⟨body, hbody, rfl⟩ := ih hv
      obtain ⟨back, hb, ⟨rfl, rfl⟩ | ⟨cs'', vs, rfl, hvs, rfl⟩⟩ := exists_of_continued? hmore
      · exact ⟨_, .lastItem hf hbody hb,
          by simp only [List.append_assoc, List.cons_append, List.nil_append]⟩
      · obtain ⟨more, hmore', rfl⟩ := ih hvs
        exact ⟨_, .item hf hbody hb hmore', by simp only [List.append_assoc, List.cons_append]⟩
    | .fields =>
      rw [part?] at h
      obtain ⟨⟨k, cs'⟩, hk, hrest⟩ := Option.bind_eq_some_iff.1 h
      obtain ⟨⟨v', cs''⟩, hv, hmore⟩ := Option.bind_eq_some_iff.1 hrest
      obtain ⟨name, hname, rfl⟩ := exists_of_name? hk
      obtain ⟨body, hbody, rfl⟩ := ih hv
      obtain ⟨back, hb, ⟨rfl, rfl⟩ | ⟨tail, fs, rfl, hfs, rfl⟩⟩ := exists_of_continued? hmore
      · exact ⟨_, .lastField hname hbody hb,
          by simp only [List.append_assoc, List.cons_append, List.nil_append]⟩
      · obtain ⟨more, hmore', rfl⟩ := ih hfs
        exact ⟨_, .field hname hbody hb hmore', by simp only [List.append_assoc, List.cons_append]⟩

/-! ### Texts -/

theorem endsAtom_of_isSpace (hws : IsSpace ws) : EndsAtom ws :=
  fun c hc => isAtomChar_of_isSpace (hws c (List.mem_of_mem_head? hc))

/-- **The reader accepts the grammar**, and nothing else. -/
theorem ofChars?_eq_some_iff {v : Json} : ofChars? cs = some v ↔ Text cs v := by
  constructor
  · intro h
    obtain ⟨front, tail, hskip, hf, rfl⟩ := exists_skip cs
    rw [ofChars?, hskip] at h
    obtain ⟨⟨v', rest⟩, hv, hend⟩ := Option.bind_eq_some_iff.1 h
    obtain ⟨body, hbody, rfl⟩ := exists_of_part? hv
    simp only at hend
    split at hend
    · next hb =>
      cases hend
      exact .mk hf hbody (List.all_eq_true.1 hb)
    · cases hend
  · intro h
    cases h with
    | @mk front body back v hf hbody hb =>
      obtain ⟨c, ds, rfl, hc, -⟩ := hbody.exists_cons
      have hn : (c :: ds).length ≤ (front ++ (c :: ds ++ back)).length := by
        simp only [List.length_append]
        omega
      have hread := part?_append hbody hn fun _ => endsAtom_of_isSpace hb
      rw [ofChars?, List.cons_append, skip_append hf hc, ← List.cons_append, hread]
      exact if_pos (List.all_eq_true.2 hb)

/-- Two code units make one character; digits may stand behind a point and in an exponent. -/
example : ofChars? "[\"\\ud83d\\uDE00\", -0.5e+1 ] ".toList =
    some (.array [.text "😀", .number ⟨true, 5, 0⟩]) := by
  rfl

/-- A code unit alone, a needless zero and a comma at the end are refused. -/
example : ["\"\\ud83d\"", "01", "[1,]"].map (fun s => (ofChars? s.toList).isNone) =
    [true, true, true] := by
  rfl

/-- A text stands for one value at most. -/
theorem Text.unique {v v' : Json} (h : Text cs v) (h' : Text cs v') : v = v' :=
  Option.some.inj ((ofChars?_eq_some_iff.2 h).symm.trans (ofChars?_eq_some_iff.2 h'))

end ScriptCell.Json
