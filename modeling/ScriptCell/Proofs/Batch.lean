import ScriptCell.Batch
import ScriptCell.Proofs.Line.Eval
import ScriptCell.Proofs.Text.Encoding

/-!
# Lines of a batch

A batch is taken apart at any of its lines (`run_line`): what stands before gives what it gives
alone, and what stands behind differs by the numbers of its lines only. A line is reported by its
trimmed text (`runLine_eq_report`), however it ends and whatever white space is around it.
-/

namespace ScriptCell

/-! ## Ends of lines -/

/-- Only white space is taken away with the end of a line. -/
theorem exists_eq_stripLineEnd (cs : List Char) : ∃ g, AllBlank g ∧ cs = stripLineEnd cs ++ g := by
  unfold stripLineEnd
  split
  · next rest h =>
    refine ⟨['\r', '\n'], ?_, ?_⟩
    · rw [allBlank_cons]
      exact ⟨by decide, allBlank_newline⟩
    · rw [← List.reverse_reverse cs, h]
      simp
  · next rest _ h =>
    refine ⟨['\n'], allBlank_newline, ?_⟩
    rw [← List.reverse_reverse cs, h]
    simp
  · exact ⟨[], allBlank_nil, (List.append_nil cs).symm⟩

/-- The end of a line is not seen by trimming. -/
theorem trimChars_stripLineEnd (cs : List Char) : trimChars (stripLineEnd cs) = trimChars cs := by
  obtain ⟨g, hg, hcs⟩ := exists_eq_stripLineEnd cs
  conv => rhs; rw [hcs]
  rw [trimChars_append_back hg]

/-- Behind a line end the lines of a text are cut. -/
theorem lines_append {before : String} (h : ∀ c ∈ before.toList.getLast?, c = '\n')
    (after : String) :
    lines (before ++ after) = lines before ++ lines after := by
  rw [lines, lines, lines, String.toList_append, splitAfter_append h, List.map_append]

/-- **The lines of a text around one of them.** -/
theorem lines_append_line {before line tail after : String}
    (hbefore : ∀ c ∈ before.toList.getLast?, c = '\n') (hne : line ≠ "")
    (hline : '\n' ∉ line.toList) (htail : Behind '\n' tail.toList after.toList) :
    ∃ l, trim l = trim line ∧
    lines (before ++ line ++ tail) = lines before ++ l :: lines after := by
  have hne' : line.toList ≠ [] := fun h => hne (String.toList_eq_nil_iff.1 h)
  obtain ⟨p, hp, hsplit⟩ := splitAfter_line hne' hline htail
  refine ⟨String.ofList (stripLineEnd p), ?_, ?_⟩
  · rw [trim_eq_trim_iff, String.toList_ofList, trimChars_stripLineEnd]
    rcases hp with rfl | rfl
    · rfl
    · exact trimChars_append_back allBlank_newline _
  · have hlines : lines (line ++ tail) = String.ofList (stripLineEnd p) :: lines after := by
      rw [lines, String.toList_append, hsplit, List.map_cons, lines]
    rw [String.append_assoc, lines_append hbefore, hlines]

namespace Batch

/-! ## Results -/

theorem Result.eq_of_parts {a b : Result} (ho : a.output = b.output)
    (hf : a.failures = b.failures) : a = b := by
  cases a
  cases b
  cases ho
  cases hf
  rfl

@[simp] theorem Result.empty_append (a : Result) : empty ++ a = a :=
  eq_of_parts (Output.empty_append _) (Nat.zero_add _)

@[simp] theorem Result.append_empty (a : Result) : a ++ empty = a :=
  eq_of_parts (Output.append_empty _) (Nat.add_zero _)

theorem Result.append_assoc (a b c : Result) : a ++ b ++ c = a ++ (b ++ c) :=
  eq_of_parts (Output.append_assoc _ _ _) (Nat.add_assoc _ _ _)

/-! ## Lines -/

/-- What a batch gives for the line with a number and a text, by what the text evaluates to: the
text in front of the outcome, or the number and the text in front of the diagnosis. -/
def report (number : Nat) (text : String) (r : Except LineError Outcome) : Result :=
  match r with
  | .ok _ => ⟨.onOut (text ++ " " ++ Colour.brightBlack.paint "=>" ++ " ") ++ shown r, 0⟩
  | .error _ => ⟨.onErr ("  --> line " ++ Nat.repr number ++ ": " ++ text ++ "\n") ++ shown r, 1⟩

/-- What a line gives is decided by its trimmed text. -/
theorem runLine_congr {line line' : String} (h : trim line = trim line') (number : Nat) :
    runLine number line = runLine number line' := by
  unfold runLine
  rw [h]

/-- A line that is passed over gives nothing. -/
theorem runLine_of_skipped {line : String} (h : isSkipped (trim line).toList = true)
    (number : Nat) : runLine number line = .empty := if_pos h

/-- **Any other line is reported by what it evaluates to.** -/
theorem runLine_eq_report {line : String} (h : isSkipped (trim line).toList = false)
    (number : Nat) : runLine number line = report number (trim line) (evalLine line) := by
  unfold runLine
  simp only [h, evalLine_trim]
  cases evalLine line with
  | ok outcome =>
    refine Result.eq_of_parts ?_ rfl
    rw [report, shown, ← Output.onOut_append, ← String.append_assoc]
    rfl
  | error e =>
    refine Result.eq_of_parts ?_ rfl
    rw [report, shown, ← Output.onErr_append]
    rfl

/-- Lines behind each other give their results behind each other. -/
theorem runLines_append (number : Nat) (ls ls' : List String) :
    runLines number (ls ++ ls') = runLines number ls ++ runLines (number + ls.length) ls' := by
  induction ls generalizing number with
  | nil => exact (Result.empty_append _).symm
  | cons l ls ih =>
    rw [List.cons_append, runLines, ih, runLines, Result.append_assoc, List.length_cons]
    congr 3
    omega

/-- **A batch around one of its lines.** -/
theorem run_line {before line tail after : String}
    (hbefore : ∀ c ∈ before.toList.getLast?, c = '\n') (hne : line ≠ "")
    (hline : '\n' ∉ line.toList) (htail : Behind '\n' tail.toList after.toList) :
    run (before ++ line ++ tail) = run before ++ runLine ((lines before).length + 1) line ++
      runLines ((lines before).length + 2) (lines after) := by
  obtain ⟨l, hl, hlines⟩ := lines_append_line hbefore hne hline htail
  rw [run, hlines, runLines_append, runLines, runLine_congr hl, ← Result.append_assoc, ← run,
    Nat.add_comm 1]

end Batch

end ScriptCell
