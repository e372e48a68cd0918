import ScriptCell.Session
import ScriptCell.Proofs.Line.Expression
import ScriptCell.Proofs.Text.Encoding

/-!
# Single replies

A session looks at a line only through its text without the white space around it (`lineText?`), so
a newline behind the line makes no difference (`reply_append_newline`). By that text a line is
evaluated with success (`Evaluates`), resets the session (`IsReset`), or is of one of the kinds that
leave the last result alone (`Idle`); no line is of two of these sorts (`idle_iff`), and
`reply_of_evaluates`, `reply_of_isReset` and `reply_last_of_idle` say what each does.
-/

namespace ScriptCell

/-! ## Requests -/

/-- What a line asks for is decided by its trimmed text. -/
theorem Request.ofLine_congr {s t : String} (h : trim s = trim t) : ofLine s = ofLine t := by
  unfold ofLine
  rw [h]

/-- A trimmed text with something else than a colon in front asks to be evaluated. -/
theorem Request.ofLine_evaluate {text : String} (htrim : trim text = text) (hne : text ≠ "")
    (hcolon : text.toList.head? ≠ some ':') : ofLine text = .evaluate text := by
  unfold ofLine
  rw [htrim]
  simp only
  split
  · next hnil => exact absurd (String.toList_eq_nil_iff.1 hnil) hne
  · next heq => rw [heq] at hcolon; exact absurd rfl hcolon
  · rfl

/-- A trimmed text with a colon in front is looked up among the commands. -/
theorem Request.ofLine_colon {text : String} (htrim : trim text = text)
    (hcolon : text.toList.head? = some ':') :
    ofLine text = match SessionCommand.spellings.lookup text with
      | some c => .command c
      | none => .badCommand := by
  unfold ofLine
  rw [htrim]
  simp only
  split
  · next hnil => rw [hnil] at hcolon; cases hcolon
  · rfl
  · next hnot =>
    obtain ⟨cs, hcs⟩ := List.head?_eq_some_iff.1 hcolon
    exact absurd hcs (hnot cs)

/-- Each spelling is that of one command. -/
theorem SessionCommand.lookup_spellings {text : String} {c : SessionCommand} :
    spellings.lookup text = some c ↔ (text, c) ∈ spellings := by
  constructor
  · intro h
    obtain ⟨l, l', hl, _⟩ := List.lookup_eq_some_iff.1 h
    rw [hl]
    exact List.mem_append_right _ (List.mem_cons_self ..)
  · have hall : ∀ p ∈ spellings, spellings.lookup p.1 = some p.2 := by decide
    exact hall (text, c)

theorem SessionCommand.mem_spellings_quit {text : String} :
    (text, .quit) ∈ spellings ↔ text ∈ [":quit", ":q", ":exit"] := by
  simp [spellings]

theorem SessionCommand.mem_spellings_reset {text : String} :
    (text, .reset) ∈ spellings ↔ text = ":reset" := by
  simp [spellings]

/-- **A trimmed text asks for the command that it spells.** -/
theorem Request.ofLine_eq_command_iff {text : String} {c : SessionCommand}
    (htrim : trim text = text) :
    ofLine text = .command c ↔ (text, c) ∈ SessionCommand.spellings := by
  by_cases hcolon : text.toList.head? = some ':'
  · rw [ofLine_colon htrim hcolon, ← SessionCommand.lookup_spellings]
    cases SessionCommand.spellings.lookup text <;> simp
  · have hall : ∀ p ∈ SessionCommand.spellings, p.1.toList.head? = some ':' := by decide
    have hspell : (text, c) ∉ SessionCommand.spellings := fun hmem => hcolon (hall _ hmem)
    by_cases hne : text = ""
    · subst hne
      exact iff_of_false nofun hspell
    · rw [ofLine_evaluate htrim hne hcolon]
      exact iff_of_false nofun hspell

/-- A trimmed text with a colon in front does not ask to be evaluated. -/
theorem Request.ofLine_ne_evaluate {text : String} (htrim : trim text = text)
    (hcolon : text.toList.head? = some ':') (text' : String) : ofLine text ≠ .evaluate text' := by
  rw [ofLine_colon htrim hcolon]
  cases SessionCommand.spellings.lookup text <;> nofun

namespace Session

/-! ## Answers -/

/-- An evaluation never ends a session. -/
theorem evaluate_stop (last : Value) (text : String) : (evaluate last text).stop = false := by
  unfold evaluate
  split
  · rfl
  · split <;> rfl

/-- Only the command to quit ends a session. -/
theorem answer_stop_iff {last : Value} {r : Request} :
    (answer last r).stop = true ↔ r = .command .quit := by
  cases r with
  | blank | badCommand => simp [answer]
  | command c => cases c <;> simp [answer, obey]
  | evaluate text => simp [answer, evaluate_stop]

/-- Only an evaluation and the command to reset can change the last result. -/
theorem answer_last {last : Value} {r : Request} (hreset : r ≠ .command .reset)
    (heval : ∀ text, r ≠ .evaluate text) : (answer last r).last = last := by
  cases r with
  | blank | badCommand => rfl
  | command c =>
    cases c with
    | reset => exact absurd rfl hreset
    | quit | help | last => rfl
  | evaluate text => exact absurd rfl (heval text)

/-! ## What a session sees of a line -/

/-- The text of a line without the white space around it, if the line is text. -/
def lineText? (line : List UInt8) : Option String := (decode? line).map trim

theorem trim_of_lineText? {line : List UInt8} {text : String} (h : lineText? line = some text) :
    trim text = text := by
  obtain ⟨s, _, rfl⟩ := Option.map_eq_some_iff.1 h
  exact trim_trim s

/-- A line that is text is answered by its trimmed text. -/
theorem reply_of_lineText? {line : List UInt8} {text : String} (h : lineText? line = some text)
    (last : Value) : reply last line = answer last (.ofLine text) := by
  obtain ⟨s, hs, rfl⟩ := Option.map_eq_some_iff.1 h
  unfold reply
  rw [hs]
  exact congrArg (answer last) (Request.ofLine_congr (trim_trim s).symm)

/-- A line that is no text ends the session. -/
theorem reply_of_lineText?_none {line : List UInt8} (h : lineText? line = none) (last : Value) :
    reply last line = ⟨.onOut "<input error>\n", last, true⟩ := by
  unfold reply
  rw [Option.map_eq_none_iff.1 h]

/-- A newline behind a line is trimmed. -/
theorem lineText?_append_newline (line : List UInt8) :
    lineText? (line ++ [10]) = lineText? line := by
  unfold lineText?
  rw [decode?_append_newline, Option.map_map]
  congr 1
  funext s
  rw [Function.comp_apply, trim_eq_trim_iff, String.toList_append]
  exact trimChars_append_back allBlank_newline s.toList

/-- **A line is answered alike with and without a newline behind it.** -/
theorem reply_append_newline (last : Value) (line : List UInt8) :
    reply last (line ++ [10]) = reply last line := by
  have htext := lineText?_append_newline line
  cases h : lineText? line with
  | none => rw [reply_of_lineText?_none (htext.trans h), reply_of_lineText?_none h]
  | some text => rw [reply_of_lineText? (htext.trans h), reply_of_lineText? h]

/-! ## Sorts of lines -/

/-- A line that is evaluated with success where `last` is the last result. -/
inductive Evaluates (last : Value) (line : List UInt8) (o : Outcome) : Prop
  | mk {text : String} {words : List String} : lineText? line = some text →
      text.toList.head? ≠ some ':' → splitWords text = .ok words →
      evalWords (readOperand last) words = .ok o → Evaluates last line o

/-- A line that is no command, and its words. -/
def HasWords (line : List UInt8) (words : List String) : Prop :=
  ∃ text, lineText? line = some text ∧ text.toList.head? ≠ some ':' ∧ splitWords text = .ok words

/-- A line is evaluated with success if its words give an outcome. -/
theorem evaluates_iff {last : Value} {line : List UInt8} {o : Outcome} :
    Evaluates last line o ↔ ∃ words, HasWords line words ∧ Gives (readOperand last) words o := by
  constructor
  · rintro ⟨htext, hcolon, hwords, heval⟩
    exact ⟨_, ⟨_, htext, hcolon, hwords⟩, evalWords_eq_ok_iff.1 heval⟩
  · rintro ⟨words, ⟨text, htext, hcolon, hwords⟩, hgives⟩
    exact ⟨htext, hcolon, hwords, evalWords_eq_ok_iff.2 hgives⟩

/-- A line that asks to forget the last result. -/
def IsReset (line : List UInt8) : Prop := lineText? line = some ":reset"

/-- A line that leaves the last result alone: it is no text, blank, any other command than to reset,
has a quote that is never closed, or is evaluated without success. -/
inductive Idle (last : Value) (line : List UInt8) : Prop
  | notText : lineText? line = none → Idle last line
  | blank : lineText? line = some "" → Idle last line
  | command {text : String} : lineText? line = some text → text.toList.head? = some ':' →
      text ≠ ":reset" → Idle last line
  | unterminated {text : String} {e : LineError} : lineText? line = some text →
      text.toList.head? ≠ some ':' → splitWords text = .error e → Idle last line
  | failed {text : String} {words : List String} {e : LineError} : lineText? line = some text →
      text.toList.head? ≠ some ':' → splitWords text = .ok words →
      evalWords (readOperand last) words = .error e → Idle last line

/-- A line at which a session ends: it is no text, or the command to quit. -/
inductive Ends (line : List UInt8) : Prop
  | notText : lineText? line = none → Ends line
  | quit {text : String} : lineText? line = some text → text ∈ [":quit", ":q", ":exit"] → Ends line

/-- What is written at a line at which a session ends. -/
def parting (line : List UInt8) : String :=
  if lineText? line = none then "<input error>\n" else farewell

/-- The last result after an evaluation. -/
def remembered (last : Value) : Except LineError Outcome → Value
  | .ok outcome => outcome.result
  | .error _ => last

variable {last : Value} {line : List UInt8} {text : String}

/-- **A line of words is answered by evaluating them.** -/
theorem reply_of_words {words : List String} (htext : lineText? line = some text) (hne : text ≠ "")
    (hcolon : text.toList.head? ≠ some ':') (hwords : splitWords text = .ok words) :
    reply last line = ⟨shown (evalWords (readOperand last) words),
      remembered last (evalWords (readOperand last) words), false⟩ := by
  rw [reply_of_lineText? htext, Request.ofLine_evaluate (trim_of_lineText? htext) hne hcolon]
  simp only [answer, evaluate, hwords]
  cases evalWords (readOperand last) words <;> rfl

/-- A line that spells a command is answered by carrying that out. -/
theorem reply_of_spelling {c : SessionCommand} (htext : lineText? line = some text)
    (hspell : (text, c) ∈ SessionCommand.spellings) : reply last line = obey last c := by
  have hrequest := (Request.ofLine_eq_command_iff (trim_of_lineText? htext)).2 hspell
  rw [reply_of_lineText? htext, hrequest]
  rfl

/-- Nothing comes of the words of an empty text. -/
theorem ne_empty_of_evalWords {words : List String} {o : Outcome}
    (hwords : splitWords text = .ok words) (heval : evalWords (readOperand last) words = .ok o) :
    text ≠ "" := by
  rintro rfl
  cases hwords
  cases heval

/-- A line that is evaluated with success shows the outcome and leaves its value behind. -/
theorem reply_of_evaluates {o : Outcome} (h : Evaluates last line o) :
    reply last line = ⟨.onOut (o.render ++ "\n"), o.result, false⟩ := by
  cases h with
  | @mk text words htext hcolon hwords heval =>
    rw [reply_of_words htext (ne_empty_of_evalWords hwords heval) hcolon hwords, heval]
    rfl

/-- The command to reset leaves a session as it was at its start. -/
theorem reply_of_isReset (h : IsReset line) :
    reply last line = ⟨.onOut (Colour.yellow.paint "State reset." ++ "\n"), .undefined, false⟩ := by
  rw [reply_of_spelling h (SessionCommand.mem_spellings_reset.2 rfl)]
  rfl

/-- A line at which a session ends is answered without a look at the last result. -/
theorem reply_of_ends (h : Ends line) : reply last line = ⟨.onOut (parting line), last, true⟩ := by
  cases h with
  | notText hnone => rw [reply_of_lineText?_none hnone, parting, if_pos hnone]
  | @quit text htext hquit =>
    have hsome : lineText? line ≠ none := by
      rw [htext]
      exact Option.some_ne_none text
    rw [reply_of_spelling htext (SessionCommand.mem_spellings_quit.2 hquit), parting, if_neg hsome]
    rfl

/-- An idle line leaves the last result alone. -/
theorem reply_last_of_idle (h : Idle last line) : (reply last line).last = last := by
  cases h with
  | notText hnone => rw [reply_of_lineText?_none hnone]
  | blank htext =>
    rw [reply_of_lineText? htext]
    rfl
  | @command text htext hcolon hreset =>
    have htrim := trim_of_lineText? htext
    rw [reply_of_lineText? htext]
    refine answer_last (fun hrequest => ?_) (Request.ofLine_ne_evaluate htrim hcolon)
    rw [Request.ofLine_eq_command_iff htrim, SessionCommand.mem_spellings_reset] at hrequest
    exact hreset hrequest
  | @unterminated text e htext hcolon hwords =>
    have hne : text ≠ "" := by
      rintro rfl
      cases hwords
    rw [reply_of_lineText? htext, Request.ofLine_evaluate (trim_of_lineText? htext) hne hcolon]
    simp only [answer, evaluate, hwords]
  | @failed text words e htext hcolon hwords heval =>
    by_cases hne : text = ""
    · subst hne
      rw [reply_of_lineText? htext]
      rfl
    · rw [reply_of_words htext hne hcolon hwords, heval]
      rfl

/-! ## The sorts are exclusive and cover all lines -/

theorem Idle.not_isReset (h : Idle last line) : ¬ IsReset line := by
  intro hreset
  rw [IsReset] at hreset
  cases h <;> simp_all

theorem Idle.not_evaluates (h : Idle last line) (o : Outcome) : ¬ Evaluates last line o := by
  rintro ⟨htext, hcolon, hwords, heval⟩
  have hne := ne_empty_of_evalWords hwords heval
  cases h <;> simp_all

/-- **A line is idle if it neither resets nor is evaluated with success, and only then.** -/
theorem idle_iff : Idle last line ↔ ¬ IsReset line ∧ ∀ o, ¬ Evaluates last line o := by
  constructor
  · exact fun h => ⟨h.not_isReset, h.not_evaluates⟩
  · rintro ⟨hreset, heval⟩
    cases htext : lineText? line with
    | none => exact .notText htext
    | some text =>
      by_cases hcolon : text.toList.head? = some ':'
      · refine .command htext hcolon ?_
        rintro rfl
        exact hreset htext
      · cases hwords : splitWords text with
        | error e => exact .unterminated htext hcolon hwords
        | ok words =>
          cases hout : evalWords (readOperand last) words with
          | error e => exact .failed htext hcolon hwords hout
          | ok o => exact absurd ⟨htext, hcolon, hwords, hout⟩ (heval o)

/-- A line at which a session ends is idle. -/
theorem Ends.idle (h : Ends line) (last : Value) : Idle last line := by
  cases h with
  | notText hnone => exact .notText hnone
  | @quit text htext hquit =>
    have hall : ∀ t ∈ [":quit", ":q", ":exit"], t.toList.head? = some ':' ∧ t ≠ ":reset" := by
      decide
    exact .command htext (hall text hquit).1 (hall text hquit).2

/-- A reset does not end a session. -/
theorem IsReset.not_ends (h : IsReset line) : ¬ Ends line :=
  fun hends => (hends.idle .undefined).not_isReset h

/-- **A session ends at no other lines.** -/
theorem reply_stop_iff : (reply last line).stop = true ↔ Ends line := by
  constructor
  · intro hstop
    cases htext : lineText? line with
    | none => exact .notText htext
    | some text =>
      rw [reply_of_lineText? htext, answer_stop_iff,
        Request.ofLine_eq_command_iff (trim_of_lineText? htext),
        SessionCommand.mem_spellings_quit] at hstop
      exact .quit htext hstop
  · intro h
    rw [reply_of_ends h]

/-- A session goes on at all other lines. -/
theorem reply_going_iff : (reply last line).stop = false ↔ ¬ Ends line := by
  rw [← reply_stop_iff, Bool.not_eq_true]

end Session

end ScriptCell
