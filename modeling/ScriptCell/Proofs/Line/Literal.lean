import ScriptCell.Proofs.Line.Expression
import ScriptCell.Proofs.Line.Operand
import ScriptCell.Proofs.Text.Quoted

/-!
# Literals that are typed in

The literal of a value is itself an operand. For a value that is neither a number nor text it stands
for this value again (`Value.readOperand_literal_of_ne`). Text is quoted with escapes and read
without them, so what comes back is what stands between the quotes (`readOperand_quote`): the text
itself exactly if all of its characters are plain. Numbers are treated in `operand_of_shown_number`.
The kind never changes (`Value.kind_readOperand_literal`).

The text between two quotes is also what remains of the word when its first and its last byte are
cut off (`isInside_quoted`), since quotes have one byte.
-/

namespace ScriptCell

/-! ## Literals of values -/

/-- **Quoted text that is typed in** is what stands between the quotes, escapes and all. -/
theorem readOperand_quote (s : String) :
    readOperand (quote s) = .string (String.ofList (s.toList.flatMap escapeChar)) := by
  have hquote : quote s =
      String.singleton '"' ++ String.ofList (s.toList.flatMap escapeChar) ++
        String.singleton '"' := by
    rw [← String.toList_inj]
    simp
  rw [hquote, readOperand_quoted (by decide)]

namespace Value

/-- The literal of a value that is neither a number nor text stands for this value. -/
theorem readOperand_literal_of_ne {v : Value} (hnumber : v.kind ≠ .number)
    (hstring : v.kind ≠ .string) :
    readOperand v.literal = v := by
  cases v with
  | undefined => exact IsLiteral.undefined.readOperand_eq
  | null => exact IsLiteral.null.readOperand_eq
  | bool b =>
    cases b
    · exact IsLiteral.falseUpper.readOperand_eq
    · exact IsLiteral.trueUpper.readOperand_eq
  | variableRef name => exact readOperand_variable name
  | number x => exact absurd rfl hnumber
  | string s => exact absurd rfl hstring

/-- **A literal that is typed in** keeps its kind. -/
theorem kind_readOperand_literal (v : Value) : (readOperand v.literal).kind = v.kind := by
  by_cases hnumber : v.kind = .number
  · cases v <;> cases hnumber
    rw [readOperand_literal, kind_number, kind_number]
  by_cases hstring : v.kind = .string
  · cases v <;> cases hstring
    rw [literal, readOperand_quote, kind_string, kind_string]
  · rw [readOperand_literal_of_ne hnumber hstring]

end Value

/-! ## Words between quotes, by their bytes -/

/-- The text `s` is what remains of a word without its first byte and its last one, and both cuts
are between characters. -/
def IsInside (s w : String) : Prop :=
  ∃ start stop : w.Pos, start.offset.byteIdx = 1 ∧ stop.offset.byteIdx + 1 = w.utf8ByteSize ∧
    start ≤ stop ∧ w.extract start stop = s

/-- A text between two others is cut out where it begins and where it ends. -/
theorem exists_extract_eq (front s back : String) :
    ∃ start stop : (front ++ s ++ back).Pos, start.offset.byteIdx = front.utf8ByteSize ∧
      stop.offset.byteIdx = (front ++ s).utf8ByteSize ∧ start ≤ stop ∧
      (front ++ s ++ back).extract start stop = s := by
  have hstart : front.rawEndPos.IsValid (front ++ s ++ back) :=
    String.Pos.Raw.isValid_iff_exists_append.2 ⟨front, s ++ back, String.append_assoc, rfl⟩
  have hstop : (front ++ s).rawEndPos.IsValid (front ++ s ++ back) :=
    String.Pos.Raw.isValid_iff_exists_append.2 ⟨front ++ s, back, rfl, rfl⟩
  refine ⟨⟨_, hstart⟩, ⟨_, hstop⟩, String.byteIdx_rawEndPos, String.byteIdx_rawEndPos, ?_, ?_⟩
  · show front.utf8ByteSize ≤ (front ++ s).utf8ByteSize
    rw [String.utf8ByteSize_append]
    omega
  · rw [← String.toByteArray_inj, String.toByteArray_extract, String.toByteArray_append]
    simp only [String.byteIdx_rawEndPos, ← String.size_toByteArray]
    rw [ByteArray.extract_append_size_left, String.toByteArray_append, ByteArray.size_append]
    exact ByteArray.extract_append_eq_right rfl rfl

/-- A quote has one byte. -/
theorem utf8ByteSize_of_isQuote {q : Char} (hq : isQuote q = true) :
    (String.singleton q).utf8ByteSize = 1 := by
  rw [String.utf8ByteSize_singleton]
  rw [isQuote, Bool.or_eq_true, decide_eq_true_eq, decide_eq_true_eq] at hq
  rcases hq with rfl | rfl <;> rfl

/-- **Text between two quotes** is what remains without the first byte and the last one. -/
theorem isInside_quoted {q : Char} (hq : isQuote q = true) (s : String) :
    IsInside s (String.singleton q ++ s ++ String.singleton q) := by
  have hsize := utf8ByteSize_of_isQuote hq
  obtain ⟨start, stop, hstart, hstop, hle, hextract⟩ :=
    exists_extract_eq (String.singleton q) s (String.singleton q)
  refine ⟨start, stop, hstart.trans hsize, ?_, hle, hextract⟩
  rw [hstop, String.utf8ByteSize_append (t := String.singleton q), hsize]

/-- A word of two bytes or more that begins and ends with one quote has the quote twice. -/
theorem exists_eq_quoted {q : Char} {w : String} (hq : isQuote q = true)
    (hfirst : w.toList.head? = some q) (hlast : w.toList.getLast? = some q)
    (hsize : 2 ≤ w.utf8ByteSize) :
    ∃ s, w = String.singleton q ++ s ++ String.singleton q := by
  obtain ⟨cs, hcs⟩ := List.getLast?_eq_some_iff.1 hlast
  cases cs with
  | nil =>
    -- the two quotes would be one, which has only one byte
    have hw : w = String.singleton q := by
      rw [← String.toList_inj, hcs]
      simp
    rw [hw, utf8ByteSize_of_isQuote hq] at hsize
    omega
  | cons c cs =>
    rw [hcs, List.cons_append, List.head?_cons, Option.some_inj] at hfirst
    subst hfirst
    refine ⟨String.ofList cs, ?_⟩
    rw [← String.toList_inj, hcs]
    simp

/-! ## What comes back -/

/-- **Which literals come back when they are typed in.** The literal of a value that is neither a
number nor text always does. The literal of a text is read as a text, which is the same one exactly
if all characters of it are plain: no double quote, no backslash, printable, and not drawn onto
their neighbours. No literal changes its kind.

Text between two quotes of one sort is read as it is, whatever it holds, further quotes included.
Every word of two bytes or more that begins and ends with one quote is such a word, and its text is
what remains when the first byte and the last one are cut off; both cuts are between characters. -/
theorem shown_literals_read_back :
    (∀ v : Value, v.kind ≠ .number → v.kind ≠ .string → readOperand v.literal = v) ∧
    (∀ s, ∃ t, readOperand (Value.string s).literal = .string t ∧
      (t = s ↔ ∀ c ∈ s.toList, isPlain c = true)) ∧
    (∀ v : Value, (readOperand v.literal).kind = v.kind) ∧
    ∀ q, isQuote q = true →
      (∀ s, readOperand (String.singleton q ++ s ++ String.singleton q) = .string s ∧
        IsInside s (String.singleton q ++ s ++ String.singleton q)) ∧
      ∀ w : String, w.toList.head? = some q → w.toList.getLast? = some q → 2 ≤ w.utf8ByteSize →
        ∃ s, readOperand w = .string s ∧ IsInside s w := by
  refine ⟨fun v => Value.readOperand_literal_of_ne, fun s => ⟨_, readOperand_quote s, ?_⟩,
    Value.kind_readOperand_literal, fun q hq => ⟨fun s => ?_, fun w hfirst hlast hsize => ?_⟩⟩
  · rw [← flatMap_escapeChar_eq_self_iff, ← String.toList_inj, String.toList_ofList]
  · exact ⟨readOperand_quoted hq s, isInside_quoted hq s⟩
  · obtain ⟨s, rfl⟩ := exists_eq_quoted hq hfirst hlast hsize
    exact ⟨s, readOperand_quoted hq s, isInside_quoted hq s⟩

/-- A variable with white space and a quote in its name, a text that shows a backslash, and a word
that holds its own quote and a character of two bytes. -/
theorem shown_literals_of_variable_and_quotes :
    (Value.variableRef "a \"b").kind ≠ .number ∧ (Value.variableRef "a \"b").kind ≠ .string ∧
    readOperand (Value.variableRef "a \"b").literal = .variableRef "a \"b" ∧
    (∃ t, readOperand (Value.string "it's\\").literal = .string t ∧ t ≠ "it's\\") ∧
    isQuote '\'' = true ∧ "'\u00e9''".toList.head? = some '\'' ∧
    "'\u00e9''".toList.getLast? = some '\'' ∧ 2 ≤ "'\u00e9''".utf8ByteSize ∧
    ∃ s, readOperand "'\u00e9''" = .string s ∧ IsInside s "'\u00e9''" := by
  have hnumber : (Value.variableRef "a \"b").kind ≠ .number := by decide
  have hstring : (Value.variableRef "a \"b").kind ≠ .string := by decide
  have hquote : isQuote '\'' = true := by decide
  have hfirst : "'\u00e9''".toList.head? = some '\'' := by decide
  have hlast : "'\u00e9''".toList.getLast? = some '\'' := by decide
  have hsize : 2 ≤ "'\u00e9''".utf8ByteSize := by decide
  obtain ⟨hback, htext, -, hword⟩ := shown_literals_read_back
  obtain ⟨t, ht, hplain⟩ := htext "it's\\"
  refine ⟨hnumber, hstring, hback _ hnumber hstring, ⟨t, ht, fun h => ?_⟩, hquote, hfirst, hlast,
    hsize, (hword '\'' hquote).2 _ hfirst hlast hsize⟩
  exact absurd (hplain.1 h '\\' (by decide)) (by decide)

end ScriptCell
