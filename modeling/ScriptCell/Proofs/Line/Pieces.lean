import ScriptCell.Proofs.Line.Grammar

/-!
# The pieces of a line

Read from left to right, a line consists of pieces: words, and the white space between them.
`Piece.Fits` says which piece can stand in front of which characters, and `Reads` which pieces a
line begins with; a reader stands between words behind them. Splitting follows a reading piece by
piece (`Piece.Fits.splitChars_append`, `Reads.splitChars_eq`), and a reading goes on to the end of
the line or to a quote that is never closed (`exists_reads`). So the words of a line are those of
its reading, a line fails for such a quote only, and a reading is the line itself
(`splitting_follows_reading`).
-/

namespace ScriptCell

/-- A piece of a line. -/
inductive Piece where
  /-- A character that is passed over between words. -/
  | skipped (c : Char)
  /-- A word, with the quotes that surround it. -/
  | word (w : List Char)

namespace Piece

/-- The characters of a piece. -/
def chars : Piece → List Char
  | .skipped c => [c]
  | .word w => w

/-- The word that a piece is. -/
def word? : Piece → Option (List Char)
  | .skipped _ => none
  | .word w => some w

/-- The piece can be read in front of these characters: white space, a quote with everything up to
the next quote of its sort, or other characters up to the next white space or the end. -/
inductive Fits : Piece → List Char → Prop
  | skipped {c : Char} {cs : List Char} : isBlank c = true → Fits (.skipped c) cs
  | quoted {q : Char} {body cs : List Char} : isQuote q = true → q ∉ body →
      Fits (.word (q :: body ++ [q])) cs
  | bare {c : Char} {w cs : List Char} : isQuote c = false → (∀ d ∈ c :: w, isBlank d = false) →
      Gapped cs →
      Fits (.word (c :: w)) cs

end Piece

/-- The text of some pieces. -/
def textOf (ps : List Piece) : List Char := ps.flatMap Piece.chars

/-- The words among some pieces. -/
def wordsOf (ps : List Piece) : List (List Char) := ps.filterMap Piece.word?

theorem wordsOf_cons (p : Piece) (ps : List Piece) :
    wordsOf (p :: ps) = wordsOf [p] ++ wordsOf ps :=
  List.filterMap_append (l := [p])

/-- `Reads ps cs rest`: the line `cs` begins with the pieces `ps`, and a reader that has read them
stands between words in front of `rest`. -/
inductive Reads : List Piece → List Char → List Char → Prop
  | done (rest : List Char) : Reads [] rest rest
  | step {p : Piece} {ps : List Piece} {cs rest : List Char} : p.Fits cs → Reads ps cs rest →
      Reads (p :: ps) (p.chars ++ cs) rest

variable {p : Piece} {ps before after : List Piece} {cs rest : List Char}

/-! ## One piece -/

/-- **Splitting takes a piece off the front.** -/
theorem Piece.Fits.splitChars_append (h : p.Fits cs) :
    splitChars (p.chars ++ cs) = (splitChars cs).map (wordsOf [p] ++ ·) := by
  cases h with
  | skipped hc =>
    refine (splitChars_cons_blank hc cs).trans ?_
    cases splitChars cs <;> rfl
  | quoted hq hbody => exact splitChars_append_quoted hq hbody cs
  | bare hc hw hgap => exact splitChars_append_bare hc hw hgap

/-- A word that fits is well formed. -/
theorem Piece.Fits.isWord {w : List Char} (h : (Piece.word w).Fits cs) : IsWord w := by
  cases h with
  | quoted hq hbody => exact .quoted hq hbody
  | bare hc hw _ => exact .bare hc hw

/-- What fits in front of a line fits in front of its beginning. -/
theorem Piece.Fits.of_append (h : p.Fits (cs ++ rest)) : p.Fits cs := by
  cases h with
  | skipped hc => exact .skipped hc
  | quoted hq hbody => exact .quoted hq hbody
  | bare hc hw hgap =>
    refine .bare hc hw ?_
    cases cs with
    | nil => exact nofun
    | cons c cs => exact hgap

/-- Behind the characters up to the first white space a word can end. -/
theorem gapped_dropWhile (cs : List Char) : Gapped (cs.dropWhile (!isBlank ·)) := by
  intro c hc
  have hhead := List.head?_dropWhile_not (!isBlank ·) cs
  rw [Option.mem_def.1 hc] at hhead
  simpa using hhead

/-- In front of any character a piece can be read, unless the character is a quote that is never
closed. -/
theorem exists_fits (c : Char) (cs : List Char) :
    (∃ (p : Piece) (rest : List Char), c :: cs = p.chars ++ rest ∧ p.Fits rest ∧
      rest.length ≤ cs.length) ∨
      isQuote c = true ∧ c ∉ cs := by
  by_cases hc : isBlank c = true
  · exact .inl ⟨.skipped c, cs, rfl, .skipped hc, Nat.le_refl _⟩
  by_cases hq : isQuote c = true
  · by_cases hmem : c ∈ cs
    · obtain ⟨body, rest, rfl, hbody⟩ := List.eq_append_cons_of_mem hmem
      refine .inl ⟨.word (c :: body ++ [c]), rest, ?_, .quoted hq hbody, ?_⟩
      · simp [Piece.chars]
      · simp only [List.length_append, List.length_cons]
        omega
    · exact .inr ⟨hq, hmem⟩
  · have hw : ∀ d ∈ c :: cs.takeWhile (!isBlank ·), isBlank d = false := by
      refine List.forall_mem_cons.2 ⟨by simpa using hc, fun d hd => ?_⟩
      simpa using List.all_eq_true.1 List.all_takeWhile d hd
    refine .inl ⟨.word (c :: cs.takeWhile (!isBlank ·)), cs.dropWhile (!isBlank ·), ?_,
      .bare (by simpa using hq) hw (gapped_dropWhile cs), (List.dropWhile_suffix _).length_le⟩
    rw [Piece.chars, List.cons_append, List.takeWhile_append_dropWhile]

/-! ## A whole reading -/

/-- Where a reading can end: at the end of the line, or in front of a quote that is never closed. -/
inductive Ended : List Char → Prop
  | nil : Ended []
  | unclosed {q : Char} {cs : List Char} : isQuote q = true → q ∉ cs → Ended (q :: cs)

/-- **Every line can be read** to the end or to a quote that is never closed. -/
theorem exists_reads : (cs : List Char) → ∃ ps rest, Reads ps cs rest ∧ Ended rest
  | [] => ⟨[], [], .done [], .nil⟩
  | c :: cs => by
    obtain ⟨p, mid, hcs, hp, hlen⟩ | ⟨hq, hcs⟩ := exists_fits c cs
    · obtain ⟨ps, rest, hps, hrest⟩ := exists_reads mid
      exact ⟨p :: ps, rest, hcs ▸ .step hp hps, hrest⟩
    · exact ⟨[], c :: cs, .done _, .unclosed hq hcs⟩
termination_by cs => cs.length
decreasing_by
  rw [List.length_cons]
  omega

namespace Reads

/-- **Splitting follows a reading**: its words come first, and then what is left is split. -/
theorem splitChars_eq (h : Reads ps cs rest) :
    splitChars cs = (splitChars rest).map (wordsOf ps ++ ·) := by
  induction h with
  | done rest => cases splitChars rest <;> rfl
  | @step p ps cs rest hp _ ih =>
    rw [hp.splitChars_append, ih, map_map_result]
    refine congrArg (Except.map · (splitChars rest)) (funext fun ws => ?_)
    rw [Function.comp_apply, wordsOf_cons p ps, List.append_assoc]

/-- **The pieces of a reading are the line up to where it ends.** -/
theorem textOf_append (h : Reads ps cs rest) : textOf ps ++ rest = cs := by
  induction h with
  | done rest => rfl
  | step hp _ ih => rw [textOf, List.flatMap_cons, List.append_assoc, ← textOf, ih]

/-- The words of a reading are well formed. -/
theorem isWord (h : Reads ps cs rest) : ∀ w ∈ wordsOf ps, IsWord w := by
  induction h with
  | done rest => exact List.forall_mem_nil _
  | @step p ps cs rest hp _ ih =>
    cases p with
    | skipped c => exact ih
    | word w => exact List.forall_mem_cons.2 ⟨hp.isWord, ih⟩

/-- A reading can be cut between its pieces. -/
theorem cut (h : Reads (before ++ after) cs rest) :
    ∃ mid, Reads before cs mid ∧ Reads after mid rest := by
  induction before generalizing cs with
  | nil => exact ⟨cs, .done cs, h⟩
  | cons p ps ih =>
    cases h with
    | step hp hps =>
      obtain ⟨mid, hbefore, hafter⟩ := ih hps
      exact ⟨mid, .step hp hbefore, hafter⟩

/-- The pieces of a reading are a line by themselves, with the same reading. -/
theorem front (h : Reads ps cs rest) : Reads ps (textOf ps) [] := by
  induction h with
  | done rest => exact .done []
  | step hp hps ih =>
    rw [← hps.textOf_append] at hp
    exact .step hp.of_append ih

end Reads

/-! ## Splitting a line -/

/-- Inside quotes a reader fails if the quote does not come again. -/
theorem Reading.words_unclosed {q : Char} (hq : q ∉ cs) (w : List Char) :
    (Reading.quoted q w).words cs = .error q := by
  induction cs generalizing w with
  | nil => rfl
  | cons c cs ih =>
    obtain ⟨hc, hcs⟩ := List.ne_and_not_mem_of_not_mem_cons hq
    rw [Reading.words, if_neg hc.symm, ih hcs]

theorem splitChars_unclosed {q : Char} (hq : isQuote q = true) (hcs : q ∉ cs) :
    splitChars (q :: cs) = .error q := by
  rw [splitChars, Reading.words, if_neg (by simp [isBlank_of_isQuote hq]), if_pos hq,
    Reading.words_unclosed hcs]

/-- A line splits into the words of a reading to its end. -/
theorem splitChars_eq_ok_iff_reads {ws : List (List Char)} :
    splitChars cs = .ok ws ↔ ∃ ps, Reads ps cs [] ∧ wordsOf ps = ws := by
  constructor
  · intro h
    obtain ⟨ps, rest, hps, hrest⟩ := exists_reads cs
    rw [hps.splitChars_eq] at h
    cases hrest with
    | nil => exact ⟨ps, hps, (List.append_nil _).symm.trans (Except.ok.inj h)⟩
    | unclosed hq hcs =>
      rw [splitChars_unclosed hq hcs] at h
      cases h
  · rintro ⟨ps, hps, rfl⟩
    rw [hps.splitChars_eq]
    exact congrArg Except.ok (List.append_nil _)

/-- The words that are met in a line are those of a reading to its end. -/
theorem spelled_iff_reads {ws : List (List Char)} :
    Spelled ws cs ↔ ∃ ps, Reads ps cs [] ∧ wordsOf ps = ws :=
  splitChars_eq_ok_iff.symm.trans splitChars_eq_ok_iff_reads

/-- A line fails to split at the quote that a reading meets and that is never closed. -/
theorem splitChars_eq_error_iff_reads {q : Char} :
    splitChars cs = .error q ↔ ∃ ps rest, Reads ps cs (q :: rest) ∧ isQuote q = true ∧
    q ∉ rest := by
  constructor
  · intro h
    obtain ⟨ps, rest, hps, hrest⟩ := exists_reads cs
    rw [hps.splitChars_eq] at h
    cases hrest with
    | nil => cases h
    | unclosed hq hcs =>
      rw [splitChars_unclosed hq hcs] at h
      obtain rfl := Except.error.inj h
      exact ⟨ps, _, hps, hq, hcs⟩
  · rintro ⟨ps, rest, hps, hq, hrest⟩
    rw [hps.splitChars_eq, splitChars_unclosed hq hrest]
    rfl

theorem splitWords_eq_error_iff {line : String} {e : LineError} :
    splitWords line = .error e ↔ ∃ q, splitChars line.toList = .error q ∧ e = .unterminated q := by
  unfold splitWords
  cases splitChars line.toList with
  | ok ws => simp
  | error q => simp [eq_comm]

/-- A character that a reading passes over is white space outside quotes: the line in front of it
splits, into the words that the reading has met so far. -/
theorem Reads.skipped {c : Char} (h : Reads (before ++ .skipped c :: after) cs rest) :
    isBlank c = true ∧ splitChars (textOf before) = .ok (wordsOf before) := by
  obtain ⟨mid, hbefore, hafter⟩ := h.cut
  refine ⟨?_, splitChars_eq_ok_iff_reads.2 ⟨before, hbefore.front, rfl⟩⟩
  cases hafter with
  | step hc _ =>
    cases hc with
    | skipped hc => exact hc

/-- **Splitting follows the reading of a line and loses nothing.** A line splits into the words of a
reading to its end, and it fails to split if a reading meets a quote that is never closed; the
message names that quote. The words are not empty and well formed. In their order, with the
characters that were passed over between them, they are the line, and each of these characters is
white space with no open quote in front of it. -/
theorem splitting_follows_reading (line : String) :
    (∀ words, splitWords line = .ok words ↔
      ∃ ps, Reads ps line.toList [] ∧ wordsOf ps = words.map String.toList) ∧
    (∀ e, splitWords line = .error e ↔
      ∃ ps q rest, Reads ps line.toList (q :: rest) ∧ isQuote q = true ∧ q ∉ rest ∧
      e = .unterminated q) ∧
    (∀ q, (LineError.unterminated q).message =
      "Unterminated string starting with " ++ String.singleton q) ∧
    ∀ words, splitWords line = .ok words →
      (∀ word ∈ words, word ≠ "" ∧ IsWord word.toList) ∧
      ∃ ps, Reads ps line.toList [] ∧ wordsOf ps = words.map String.toList ∧
      textOf ps = line.toList ∧
        ∀ before c after, ps = before ++ .skipped c :: after →
          isBlank c = true ∧ splitChars (textOf before) = .ok (wordsOf before) := by
  refine ⟨fun words => splitWords_eq_ok_iff.trans splitChars_eq_ok_iff_reads, fun e => ?_,
    fun _ => rfl, ?_⟩
  · rw [splitWords_eq_error_iff]
    constructor
    · rintro ⟨q, hq, rfl⟩
      obtain ⟨ps, rest, hps, hquote, hrest⟩ := splitChars_eq_error_iff_reads.1 hq
      exact ⟨ps, q, rest, hps, hquote, hrest, rfl⟩
    · rintro ⟨ps, q, rest, hps, hquote, hrest, rfl⟩
      exact ⟨q, splitChars_eq_error_iff_reads.2 ⟨ps, rest, hps, hquote, hrest⟩, rfl⟩
  · intro words hwords
    obtain ⟨ps, hps, hws⟩ := splitChars_eq_ok_iff_reads.1 (splitWords_eq_ok_iff.1 hwords)
    have htext : textOf ps = line.toList := (List.append_nil _).symm.trans hps.textOf_append
    refine ⟨fun word hword => ?_, ps, hps, hws, htext, ?_⟩
    · have hform : IsWord word.toList := hps.isWord _ (hws ▸ List.mem_map_of_mem hword)
      refine ⟨?_, hform⟩
      rintro rfl
      obtain ⟨c, cs, hnil, -⟩ := hform.exists_cons
      cases hnil
    · rintro before c after rfl
      exact hps.skipped

/-- A quote inside a bare word, a quoted word that touches the next one, and a quote that is never
closed. -/
theorem splitting_quotes_and_blanks :
    splitWords "a\"b\u3000'c d'e" = .ok ["a\"b", "'c d'", "e"] ∧
    (∃ ps, wordsOf ps = ["a\"b", "'c d'", "e"].map String.toList ∧
      textOf ps = "a\"b\u3000'c d'e".toList) ∧
    splitWords "'a' \"b c'" = .error (.unterminated '"') := by
  have hwords : splitWords "a\"b\u3000'c d'e" = .ok ["a\"b", "'c d'", "e"] := by rfl
  obtain ⟨-, -, -, hlossless⟩ := splitting_follows_reading "a\"b\u3000'c d'e"
  obtain ⟨-, ps, -, hps, htext, -⟩ := hlossless _ hwords
  refine ⟨hwords, ⟨ps, hps, htext⟩, ?_⟩
  obtain ⟨-, herror, -⟩ := splitting_follows_reading "'a' \"b c'"
  refine (herror _).2 ⟨[.word "'a'".toList, .skipped ' '], '"', "b c'".toList, ?_, by decide,
    by decide, rfl⟩
  have hquoted : (Piece.word "'a'".toList).Fits " \"b c'".toList :=
    .quoted (by decide : isQuote '\'' = true) (by decide : '\'' ∉ ['a'])
  exact .step hquoted (.step (.skipped (by decide)) (.done _))

end ScriptCell
