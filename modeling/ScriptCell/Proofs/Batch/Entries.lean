import ScriptCell.Command
import ScriptCell.Proofs.Batch

/-!
# Entries of a batch

A batch makes one entry of each line that is an expression: its number, its trimmed text and what
that evaluates to. All that the batch writes is its entries, each on the one stream or the other
(`run_eq`), so that it is cut behind any line end (`entries_append`): the entries behind the cut are
those that the rest makes alone, with other numbers. How lines end makes no difference
(`entries_append_newline`, `entries_withReturns`).

`batch_by_entries` gathers this for the file of a batch as the program reads it.
-/

namespace ScriptCell

namespace Batch

/-- An evaluated line of a batch. -/
structure Entry where
  /-- The number of the line. -/
  number : Nat
  /-- The line without white space around it. -/
  text : String
  /-- What the text evaluates to. -/
  result : Except LineError Outcome

/-- The line is an expression: it holds something but white space, and is no comment. -/
def IsExpression (line : String) : Prop := trim line ≠ "" ∧ (trim line).toList.head? ≠ some '#'

theorem isSkipped_eq_false_iff {line : String} :
    isSkipped (trim line).toList = false ↔ IsExpression line := by
  rw [IsExpression, Ne, ← String.toList_eq_nil_iff]
  cases (trim line).toList with
  | nil => exact iff_of_false nofun fun h => h.1 rfl
  | cons c cs => simp [isSkipped]

namespace Entry

/-- The entry of the line with a number, if the line is an expression. -/
def ofLine? (number : Nat) (line : String) : Option Entry :=
  if isSkipped (trim line).toList then none else some ⟨number, trim line, evalLine line⟩

theorem ofLine?_eq_some_iff {number : Nat} {line : String} {e : Entry} :
    ofLine? number line = some e ↔ IsExpression line ∧ e = ⟨number, trim line, evalLine line⟩ := by
  unfold ofLine?
  rw [← isSkipped_eq_false_iff]
  cases isSkipped (trim line).toList with
  | true => exact iff_of_false nofun fun h => nomatch h.1
  | false => exact ⟨fun h => ⟨rfl, (Option.some.inj h).symm⟩, fun h => congrArg some h.2.symm⟩

/-- An entry depends on the trimmed line only. -/
theorem ofLine?_congr {line line' : String} (h : trim line = trim line') (number : Nat) :
    ofLine? number line = ofLine? number line' := by
  rw [ofLine?, ofLine?, ← evalLine_trim line, ← evalLine_trim line', h]

/-- The entry further down, behind so many more lines. -/
def shift (k : Nat) (e : Entry) : Entry := { e with number := e.number + k }

theorem ofLine?_add (number k : Nat) (line : String) :
    ofLine? (number + k) line = (ofLine? number line).map (shift k) := by
  unfold ofLine?
  split
  · rfl
  · rfl

/-- What an entry is on the output stream, unless it failed: its text and the outcome. -/
def line? (e : Entry) : Option String :=
  match e.result with
  | .ok o => some (e.text ++ " " ++ Colour.brightBlack.paint "=>" ++ " " ++ o.render ++ "\n")
  | .error _ => none

/-- What an entry is on the error stream, if it failed: its number, its text and the diagnosis. -/
def block? (e : Entry) : Option String :=
  match e.result with
  | .ok _ => none
  | .error f =>
    some ("  --> line " ++ Nat.repr e.number ++ ": " ++ e.text ++ "\n" ++ f.diagnose "Error")

/-- An entry is on one of the streams. -/
theorem line?_or_block? (e : Entry) :
    (∃ s, e.line? = some s ∧ e.block? = none) ∨ ∃ s, e.line? = none ∧ e.block? = some s := by
  unfold line? block?
  cases e.result with
  | ok o => exact .inl ⟨_, rfl, rfl⟩
  | error f => exact .inr ⟨_, rfl, rfl⟩

end Entry

/-- The line is an expression that fails. -/
def fails (line : String) : Bool := !isSkipped (trim line).toList && !(evalLine line).isOk

/-- The entries of lines, the first of which has the number `number`. -/
def entriesFrom (number : Nat) : List String → List Entry
  | [] => []
  | line :: ls => (Entry.ofLine? number line).toList ++ entriesFrom (number + 1) ls

/-- The entries of a text. -/
def entries (text : String) : List Entry := entriesFrom 1 (lines text)

/-- The number of lines of a text that fail. -/
def failures (text : String) : Nat := (lines text).countP fails

/-- What entries are on the streams, one behind the other. -/
def written (es : List Entry) : Output :=
  ⟨String.join (es.filterMap Entry.line?), String.join (es.filterMap Entry.block?)⟩

/-! ## Entries and what is written -/

theorem written_append (es es' : List Entry) : written (es ++ es') = written es ++ written es' := by
  have hjoin (f : Entry → Option String) : String.join ((es ++ es').filterMap f) =
      String.join (es.filterMap f) ++ String.join (es'.filterMap f) := by
    rw [List.filterMap_append, String.join_append]
  exact Output.eq_of_streams (hjoin _) (hjoin _)

theorem written_of_line? {e : Entry} {s : String} (hline : e.line? = some s)
    (hblock : e.block? = none) : written [e] = .onOut s := by
  rw [written, List.filterMap_cons_some hline, List.filterMap_cons_none hblock, List.filterMap_nil,
    List.filterMap_nil, String.join_cons, String.join_nil, String.append_empty]
  rfl

theorem written_of_block? {e : Entry} {s : String} (hline : e.line? = none)
    (hblock : e.block? = some s) : written [e] = .onErr s := by
  rw [written, List.filterMap_cons_none hline, List.filterMap_cons_some hblock, List.filterMap_nil,
    List.filterMap_nil, String.join_cons, String.join_nil, String.append_empty]
  rfl

/-- An evaluated line is reported by its entry. -/
theorem report_eq (number : Nat) (text : String) (r : Except LineError Outcome) :
    report number text r = ⟨written [⟨number, text, r⟩], if r.isOk then 0 else 1⟩ := by
  cases r with
  | ok o =>
    rw [written_of_line? rfl rfl, report, shown, ← Output.onOut_append, ← String.append_assoc]
    rfl
  | error f =>
    rw [written_of_block? rfl rfl, report, shown, ← Output.onErr_append]
    rfl

/-- A line writes its entry. -/
theorem runLine_eq (number : Nat) (line : String) :
    runLine number line =
      ⟨written (Entry.ofLine? number line).toList, [line].countP fails⟩ := by
  rw [List.countP_singleton, fails, Entry.ofLine?]
  cases h : isSkipped (trim line).toList with
  | true => exact runLine_of_skipped h number
  | false =>
    rw [runLine_eq_report h, report_eq]
    cases (evalLine line).isOk <;> rfl

/-- Lines write their entries, one behind the other. -/
theorem runLines_eq (number : Nat) (ls : List String) :
    runLines number ls = ⟨written (entriesFrom number ls), ls.countP fails⟩ := by
  induction ls generalizing number with
  | nil => rfl
  | cons line ls ih =>
    have hcount : ([line] ++ ls).countP fails = [line].countP fails + ls.countP fails :=
      List.countP_append
    rw [List.singleton_append] at hcount
    refine Result.eq_of_parts ?_ ?_
    · rw [runLines, runLine_eq, ih, Result.output_append, entriesFrom, written_append]
    · rw [runLines, runLine_eq, ih, Result.failures_append, hcount]

/-- **A batch writes its entries.** -/
theorem run_eq (text : String) : run text = ⟨written (entries text), failures text⟩ := by
  rw [run, runLines_eq]
  rfl

/-! ## Which entries there are -/

theorem mem_entriesFrom {number : Nat} {ls : List String} {e : Entry} :
    e ∈ entriesFrom number ls ↔
      ∃ i line, ls[i]? = some line ∧ Entry.ofLine? (number + i) line = some e := by
  induction ls generalizing number with
  | nil => exact iff_of_false nofun fun ⟨_, _, h, _⟩ => nomatch h
  | cons l ls ih =>
    rw [entriesFrom, List.mem_append, Option.mem_toList, ih]
    constructor
    · rintro (he | ⟨i, line, hget, he⟩)
      · exact ⟨0, l, rfl, he⟩
      · exact ⟨i + 1, line, hget, by rwa [Nat.add_comm i, ← Nat.add_assoc]⟩
    · rintro ⟨_ | i, line, hget, he⟩
      · rw [Option.some.inj hget]
        exact .inl he
      · exact .inr ⟨i, line, hget, by rwa [Nat.add_comm i, ← Nat.add_assoc] at he⟩

/-- **Every expression of a text is an entry**, with the number of its line, and there are no
others. -/
theorem mem_entries {text : String} {e : Entry} :
    e ∈ entries text ↔ ∃ i line, (lines text)[i]? = some line ∧ IsExpression line ∧
      e = ⟨i + 1, trim line, evalLine line⟩ := by
  simp only [entries, mem_entriesFrom, Entry.ofLine?_eq_some_iff, Nat.add_comm 1]

/-- Entries stand in the order of their lines, and no line has two. -/
theorem pairwise_entriesFrom (number : Nat) (ls : List String) :
    (entriesFrom number ls).Pairwise fun e e' => e.number < e'.number := by
  induction ls generalizing number with
  | nil => exact .nil
  | cons line ls ih =>
    rw [entriesFrom, List.pairwise_append]
    refine ⟨?_, ih (number + 1), fun e he e' he' => ?_⟩
    · cases Entry.ofLine? number line with
      | none => exact .nil
      | some e => exact List.pairwise_singleton _ _
    -- the entry of the first line has the number of that line, and the rest starts behind it
    · obtain ⟨i, line', -, he'⟩ := mem_entriesFrom.1 he'
      rw [(Entry.ofLine?_eq_some_iff.1 (Option.mem_toList.1 he)).2,
        (Entry.ofLine?_eq_some_iff.1 he').2]
      show number < number + 1 + i
      omega

/-- Entries depend on the trimmed lines only. -/
theorem entriesFrom_congr {ls ls' : List String} (h : ls.map trim = ls'.map trim) (number : Nat) :
    entriesFrom number ls = entriesFrom number ls' := by
  induction ls generalizing ls' number with
  | nil => rw [List.map_eq_nil_iff.1 h.symm]
  | cons line ls ih =>
    obtain ⟨line', rest, rfl, hline, hrest⟩ := List.map_eq_cons_iff.1 h.symm
    rw [entriesFrom, entriesFrom, Entry.ofLine?_congr hline.symm, ih hrest.symm]

/-! ## Cutting a text -/

theorem entriesFrom_append (number : Nat) (ls ls' : List String) :
    entriesFrom number (ls ++ ls') =
      entriesFrom number ls ++ entriesFrom (number + ls.length) ls' := by
  induction ls generalizing number with
  | nil => rfl
  | cons line ls ih =>
    rw [List.cons_append, entriesFrom, ih, entriesFrom, List.append_assoc, List.length_cons,
      Nat.add_assoc, Nat.add_comm 1]

theorem entriesFrom_add (number k : Nat) (ls : List String) :
    entriesFrom (number + k) ls = (entriesFrom number ls).map (Entry.shift k) := by
  induction ls generalizing number with
  | nil => rfl
  | cons line ls ih =>
    rw [entriesFrom, entriesFrom, List.map_append, ← ih, Entry.ofLine?_add, Nat.add_right_comm,
      Option.toList_map]

/-- Where a line stands is not seen on the output stream. -/
theorem out_written_shift (k : Nat) (es : List Entry) :
    (written (es.map (Entry.shift k))).out = (written es).out := by
  rw [written, List.filterMap_map]
  rfl

/-- **Behind a line end a text can be cut**: the entries behind it have other numbers than alone. -/
theorem entries_append {before : String} (h : ∀ c ∈ before.toList.getLast?, c = '\n')
    (after : String) :
    entries (before ++ after) =
      entries before ++ (entries after).map (Entry.shift (lines before).length) := by
  rw [entries, lines_append h, entriesFrom_append, entriesFrom_add]
  rfl

theorem failures_append {before : String} (h : ∀ c ∈ before.toList.getLast?, c = '\n')
    (after : String) : failures (before ++ after) = failures before + failures after := by
  rw [failures, lines_append h, List.countP_append]
  rfl

/-! ## Ends of lines -/

/-- Trimmed lines are the trimmed pieces of the text. -/
theorem map_trim_lines (text : String) :
    (lines text).map trim = (splitAfter '\n' text.toList).map fun p =>
      String.ofList (trimChars p) := by
  rw [lines, List.map_map]
  refine List.map_congr_left fun p _ => ?_
  rw [Function.comp_apply, trim, String.toList_ofList, trimChars_stripLineEnd]

/-- A newline behind a text makes no entry. -/
theorem entries_append_newline (text : String) : entries (text ++ "\n") = entries text := by
  by_cases h : ∀ c ∈ text.toList.getLast?, c = '\n'
  · have hnone : entries "\n" = [] := rfl
    rw [entries_append h, hnone, List.map_nil, List.append_nil]
  -- otherwise the newline ends the last line, and is trimmed from it
  · have hne : text.toList ≠ [] := by
      intro hnil
      rw [hnil] at h
      exact h nofun
    have hlast : text.toList.getLast? ≠ some '\n' := by
      intro hlast
      rw [hlast] at h
      exact h fun c hc => (Option.some.inj hc).symm
    obtain ⟨ps, p, hps, hps'⟩ := splitAfter_append_sep hne hlast
    refine entriesFrom_congr ?_ 1
    have htoList : (text ++ "\n").toList = text.toList ++ ['\n'] := String.toList_append
    rw [map_trim_lines, map_trim_lines, htoList, hps, hps', List.map_append, List.map_append,
      List.map_singleton, List.map_singleton, trimChars_append_back allBlank_newline]

/-- The characters with a carriage return in front of every newline. -/
def withReturns (cs : List Char) : List Char :=
  cs.flatMap fun c => if c = '\n' then ['\r', '\n'] else [c]

theorem withReturns_of_notMem {cs : List Char} (h : '\n' ∉ cs) : withReturns cs = cs := by
  induction cs with
  | nil => rfl
  | cons c cs ih =>
    rw [List.mem_cons, not_or] at h
    rw [withReturns, List.flatMap_cons, if_neg (Ne.symm h.1), ← withReturns, ih h.2]
    rfl

/-- Carriage returns in front of newlines do not cut a text in another way. -/
theorem splitAfter_withReturns (cs : List Char) :
    splitAfter '\n' (withReturns cs) = (splitAfter '\n' cs).map withReturns := by
  induction cs with
  | nil => rfl
  | cons c cs ih =>
    by_cases hc : c = '\n'
    · subst hc
      have hcut : splitAfter '\n' ('\n' :: withReturns cs) =
          ['\n'] :: splitAfter '\n' (withReturns cs) :=
        splitAfter_cons_self _
      rw [splitAfter_cons_self, List.map_cons, ← ih]
      exact splitAfter_cons_of_ne (by decide) hcut
    · have hcons (ds : List Char) : withReturns (c :: ds) = c :: withReturns ds := by
        rw [withReturns, List.flatMap_cons, if_neg hc]
        rfl
      rw [hcons]
      cases hcs : splitAfter '\n' cs with
      | nil =>
        rw [hcs] at ih
        rw [splitAfter, if_neg hc, ih, splitAfter, if_neg hc, hcs, List.map_singleton, hcons]
        rfl
      | cons p ps =>
        rw [hcs] at ih
        rw [splitAfter_cons_of_ne hc hcs, splitAfter_cons_of_ne hc ih, List.map_cons, hcons]

/-- **Lines may end in a carriage return and a newline**: the entries are the same. -/
theorem entries_withReturns (text : String) :
    entries (String.ofList (withReturns text.toList)) = entries text := by
  refine entriesFrom_congr ?_ 1
  rw [map_trim_lines, map_trim_lines, String.toList_ofList, splitAfter_withReturns, List.map_map]
  refine List.map_congr_left fun p hp => congrArg String.ofList ?_
  obtain ⟨q, hq, rfl | rfl⟩ := exists_of_mem_splitAfter hp
  · rw [withReturns_of_notMem hq]
  · have hreturns : withReturns (q ++ ['\n']) = q ++ ['\r', '\n'] := by
      rw [withReturns, List.flatMap_append, ← withReturns, withReturns_of_notMem hq]
      rfl
    rw [hreturns, trimChars_append_back allBlank_newline, trimChars_append_back (by decide)]

end Batch

/-! ## The file of a batch -/

namespace Command

/-- The line that tells how many lines failed, if any did. -/
def failureNote (failures : Nat) : String :=
  if failures = 0 then ""
  else Colour.red.paint (Nat.repr failures ++ " line(s) failed") ++ "\n"

theorem batchExit_eq (r : Batch.Result) :
    batchExit r =
      ⟨if r.failures = 0 then 0 else 1, r.output ++ .onErr (failureNote r.failures)⟩ := by
  unfold batchExit failureNote
  split
  · exact congrArg (Exit.mk 0) (Output.append_empty _).symm
  · rfl

/-- A file of text is a batch. -/
theorem runBatch_encode (path text : String) :
    runBatch path (.file (encode text)) = batchExit (Batch.run text) := by
  simp only [runBatch, decode?_encode]

/-- A file that is no text is not a batch. -/
theorem runBatch_of_not_text {bytes : List UInt8} (h : ∀ text, bytes ≠ encode text)
    (path : String) :
    runBatch path (.file bytes) =
      ⟨1, .onErr (complaint ("Failed to read " ++ path ++ ": " ++
        "stream did not contain valid UTF-8"))⟩ := by
  cases hd : decode? bytes with
  | none => simp only [runBatch, hd]
  | some text => exact absurd (decode?_eq_some_iff.1 hd) (h text)

end Command

/-- **A batch is its lines, one by one.** Take the exit for a batch at a path, by what the path
leads to.

If that is a file of text, the entries of the batch are the expressions among its lines, each with
the number of the line, in this order; an entry is a line of the output stream or a block of the
error stream; and these are all that is written, but for the number of lines that failed behind
them. The exit code is 1 if there are such lines, and 0 otherwise.

Behind a line end the text can be cut: the output and the numbers of failures of the two parts are
put together, and the entries of the second part are further down by the lines of the first.

If the file is no text, nothing is evaluated. -/
theorem batch_by_entries (path : String) :
    (∀ read input, Command.run read input ["batch", path] = Command.runBatch path (read path)) ∧
    (∀ text,
      (∀ e, e ∈ Batch.entries text ↔ ∃ i line, (lines text)[i]? = some line ∧
        Batch.IsExpression line ∧ e = ⟨i + 1, trim line, evalLine line⟩) ∧
      (Batch.entries text).Pairwise (fun e e' => e.number < e'.number) ∧
      (∀ e ∈ Batch.entries text, (∃ s, e.line? = some s ∧ e.block? = none) ∨
        ∃ s, e.line? = none ∧ e.block? = some s) ∧
      (Command.runBatch path (.file (encode text))).output.out =
        String.join ((Batch.entries text).filterMap Batch.Entry.line?) ∧
      (Command.runBatch path (.file (encode text))).output.err =
        String.join ((Batch.entries text).filterMap Batch.Entry.block?) ++
          Command.failureNote (Batch.failures text) ∧
      ((Command.runBatch path (.file (encode text))).code = 1 ↔ 0 < Batch.failures text) ∧
      ((Command.runBatch path (.file (encode text))).code = 0 ↔ Batch.failures text = 0)) ∧
    (∀ before after : String, (∀ c ∈ before.toList.getLast?, c = '\n') →
      (Command.runBatch path (.file (encode (before ++ after)))).output.out =
        (Command.runBatch path (.file (encode before))).output.out ++
          (Command.runBatch path (.file (encode after))).output.out ∧
      Batch.failures (before ++ after) = Batch.failures before + Batch.failures after ∧
      Batch.entries (before ++ after) = Batch.entries before ++
        (Batch.entries after).map (Batch.Entry.shift (lines before).length) ∧
      (lines before).length = before.toList.count '\n') ∧
    ∀ bytes, (∀ text, bytes ≠ encode text) →
      Command.runBatch path (.file bytes) = ⟨1, .onErr (Command.complaint
        ("Failed to read " ++ path ++ ": " ++ "stream did not contain valid UTF-8"))⟩ := by
  have hexit (text : String) : Command.runBatch path (.file (encode text)) =
      ⟨if Batch.failures text = 0 then 0 else 1, Batch.written (Batch.entries text) ++
        .onErr (Command.failureNote (Batch.failures text))⟩ := by
    rw [Command.runBatch_encode, Command.batchExit_eq, Batch.run_eq]
  have hout (text : String) : (Command.runBatch path (.file (encode text))).output.out =
      (Batch.written (Batch.entries text)).out := by
    rw [hexit]
    exact String.append_empty
  refine ⟨fun _ _ => rfl, fun text => ?_, fun before after h => ?_, fun bytes h => ?_⟩
  · refine ⟨fun e => Batch.mem_entries, Batch.pairwise_entriesFrom _ _,
      fun e _ => e.line?_or_block?, hout text, ?_, ?_, ?_⟩
    · rw [hexit]
      rfl
    · rw [hexit]
      show (if Batch.failures text = 0 then 0 else 1) = 1 ↔ _
      split <;> omega
    · rw [hexit]
      show (if Batch.failures text = 0 then 0 else 1) = 0 ↔ _
      split <;> omega
  · refine ⟨?_, Batch.failures_append h after, Batch.entries_append h after, ?_⟩
    · rw [hout, hout, hout, Batch.entries_append h, Batch.written_append, Output.out_append,
        Batch.out_written_shift]
    · rw [lines, List.length_map, length_splitAfter h]
  · exact Command.runBatch_of_not_text h path

/-- A comment and a blank line are counted, a failure behind them does not end the batch, and a byte
that is no text hides the expression in front of it. -/
theorem batch_with_comment_and_failure :
    (∀ c ∈ "# sums\n1 + 2\n\n".toList.getLast?, c = '\n') ∧
    (∀ text, [0x31, 0xff] ≠ encode text) ∧
    (Batch.entries ("# sums\n1 + 2\n\n" ++ "true - 1\r\nnull")).map (·.number) = [2, 4, 5] ∧
    (Command.runBatch "sums" (.file (encode ("# sums\n1 + 2\n\n" ++ "true - 1\r\nnull")))).code =
      1 ∧
    (Command.runBatch "sums" (.file [0x31, 0xff])).output.out = "" := by
  have hend : ∀ c ∈ "# sums\n1 + 2\n\n".toList.getLast?, c = '\n' :=
    fun c hc => (Option.some_inj.1 hc).symm
  have hnot : ∀ text, [0x31, 0xff] ≠ encode text := by
    intro text h
    have hnone : decode? [0x31, 0xff] = none := by decide
    rw [h, decode?_encode] at hnone
    cases hnone
  obtain ⟨-, htext, hcut, hbytes⟩ := batch_by_entries "sums"
  obtain ⟨-, hfailures, hentries, hlength⟩ := hcut _ "true - 1\r\nnull" hend
  obtain ⟨-, -, -, -, -, hcode, -⟩ := htext ("# sums\n1 + 2\n\n" ++ "true - 1\r\nnull")
  refine ⟨hend, hnot, ?_, hcode.2 ?_, ?_⟩
  · rw [hentries, hlength]
    rfl
  · rw [hfailures]
    decide +kernel
  · rw [hbytes _ hnot]
    rfl

end ScriptCell
