import ScriptCell.Command
import ScriptCell.Proofs.Batch
import ScriptCell.Proofs.Line.Substitution
import ScriptCell.Proofs.Session.Reply

/-!
# The ways to ask for an evaluation

An evaluation is asked for on the command line, in a line of a batch or in a line of a session.
`front_ends_agree` says that the three show the same outcome for the same words, with three
exceptions: a batch passes over a line that begins with `#`, a session takes a line that begins with
`:` for a command, and the operand `_` of a session is its last result.
-/

namespace ScriptCell

/-- Arguments that ask for one evaluation, with the words of the line that asks for the same. -/
inductive SameRequest : List String → List String → Prop
  | operator (a op b : String) : SameRequest ["eval", a, op, b] [a, op, b]
  | negation (a : String) : SameRequest ["neg", a] ["neg", a]
  | operand (a : String) : SameRequest ["coerce", a] [a]

theorem SameRequest.words_ne_nil {args words : List String} (h : SameRequest args words) :
    words ≠ [] := by
  cases h <;> exact List.cons_ne_nil _ _

/-! ## The command line -/

/-- The exit of a program that shows an evaluation. -/
def exitOf (r : Except LineError Outcome) : Exit :=
  match r with
  | .ok _ => ⟨0, shown r⟩
  | .error _ => ⟨1, shown r⟩

theorem Command.runWords_eq (words : List String) :
    runWords words = exitOf (evalWords readOperand words) := by
  unfold runWords
  cases evalWords readOperand words <;> rfl

/-- **Arguments are evaluated as the words of a line.** -/
theorem Command.run_of_sameRequest {args words : List String} (h : SameRequest args words)
    (read : String → PathContent) (input : List UInt8) :
    run read input args = exitOf (evalWords readOperand words) := by
  rw [← runWords_eq]
  cases h with
  | operator a op b => rfl
  | negation a => rfl
  | operand a => rfl

/-! ## Batches and sessions -/

section
variable {words : List String} {line : String}

theorem ne_empty_of_spaced (h : Spaced (words.map String.toList) line.toList) (hne : words ≠ []) :
    trim line ≠ "" := by
  intro hnil
  have hwords := splitWords_of_spaced h
  rw [← splitWords_trim, hnil] at hwords
  cases hwords
  exact hne rfl

/-- A batch passes over a line that begins with `#` and over no other line of words. -/
theorem Batch.isSkipped_of_spaced (h : Spaced (words.map String.toList) line.toList)
    (hne : words ≠ []) : isSkipped (trim line).toList = true ↔ firstChar? words = some '#' := by
  have hhead := head?_trim_of_spaced h
  have hnil : (trim line).toList ≠ [] :=
    fun hnil => ne_empty_of_spaced h hne (String.toList_eq_nil_iff.1 hnil)
  obtain ⟨c, cs, hcs⟩ := List.exists_cons_of_ne_nil hnil
  rw [hcs, List.head?_cons] at hhead
  rw [hcs, ← hhead, isSkipped, decide_eq_true_iff, Option.some_inj]

theorem Session.lineText?_encode (line : String) : lineText? (encode line) = some (trim line) := by
  unfold lineText?
  rw [decode?_encode]
  rfl

/-- **A session evaluates the words of a line.** -/
theorem Session.reply_of_spaced (h : Spaced (words.map String.toList) line.toList)
    (hne : words ≠ []) (hcolon : firstChar? words ≠ some ':') (last : Value) :
    reply last (encode line) = ⟨shown (evalWords (readOperand last) words),
      remembered last (evalWords (readOperand last) words), false⟩ := by
  refine reply_of_words (lineText?_encode line) (ne_empty_of_spaced h hne) ?_ ?_
  · rw [head?_trim_of_spaced h]
    exact hcolon
  · rw [splitWords_trim, splitWords_of_spaced h]

/-- Operands of a session are read as ever unless one is the word for the last result. -/
theorem Session.evalWords_readOperand (h : "_" ∉ operandWords words) (last : Value) :
    evalWords (readOperand last) words = evalWords ScriptCell.readOperand words :=
  evalWords_bound_of_not_mem h last ScriptCell.readOperand

/-- A session answers its first line, however the line ends, and goes on with the rest. -/
theorem Session.converse_line {last : Value} {xs tail rest : List UInt8} (hne : xs ≠ [])
    (hline : 10 ∉ xs) (htail : Behind 10 tail rest) (hstop : (reply last xs).stop = false) :
    converse last (splitAfter 10 (xs ++ tail)) = .onOut prompt ++ (reply last xs).output ++
      converse (reply last xs).last (splitAfter 10 rest) := by
  obtain ⟨p, hp, hsplit⟩ := splitAfter_line hne hline htail
  have hreply : reply last p = reply last xs := by
    rcases hp with rfl | rfl
    · rfl
    · exact reply_append_newline last xs
  rw [hsplit, converse, hreply]
  simp only [hstop]
  rfl

end

/-! ## All front ends -/

/-- **The front ends agree.** Take arguments and a line that ask for the same evaluation: the line
has the words of the request with any white space but newlines between and around them. There is one
outcome that the command line shows for the arguments, that a batch reports for the line wherever it
stands, and that a session shows for the line wherever it stands, before it goes on with the value
of the outcome.

The exceptions are what the remaining parts say: a batch passes over a line that begins with `#`; a
session does not evaluate a line that begins with `:`; and in general a session evaluates the words
of the line with its last result for the operand `_`. -/
theorem front_ends_agree {args words : List String} {line : String}
    (hargs : SameRequest args words) (hline : Spaced (words.map String.toList) line.toList)
    (hnewline : '\n' ∉ line.toList) :
    (∃ r, evalWords readOperand words = r ∧
      (∀ read input, Command.run read input args = exitOf r) ∧
      (firstChar? words ≠ some '#' → ∀ before tail after : String,
        (∀ c ∈ before.toList.getLast?, c = '\n') → Behind '\n' tail.toList after.toList →
        Batch.run (before ++ line ++ tail) = Batch.run before ++
          Batch.report ((lines before).length + 1) (trim line) r ++
          Batch.runLines ((lines before).length + 2) (lines after)) ∧
      (firstChar? words ≠ some ':' → "_" ∉ operandWords words → ∀ last tail after,
        Behind 10 tail after →
        Session.converse last (splitAfter 10 (encode line ++ tail)) =
          .onOut Session.prompt ++ shown r ++
            Session.converse (Session.remembered last r) (splitAfter 10 after))) ∧
    (firstChar? words = some '#' → ∀ number, Batch.runLine number line = .empty) ∧
    (firstChar? words = some ':' → ∀ last o, ¬ Session.Evaluates last (encode line) o) ∧
    (firstChar? words ≠ some ':' → ∀ last,
      (Session.reply last (encode line)).output =
        shown (evalWords (Session.readOperand last) words)) := by
  have hne := hargs.words_ne_nil
  have htrim := ne_empty_of_spaced hline hne
  have hlne : line ≠ "" := by
    rintro rfl
    exact htrim rfl
  have hskip := Batch.isSkipped_of_spaced hline hne
  refine ⟨⟨_, rfl, Command.run_of_sameRequest hargs, ?_, ?_⟩, ?_, ?_, ?_⟩
  · intro hhash before tail after hbefore htail
    rw [Batch.run_line hbefore hlne hnewline htail, Batch.runLine_eq_report,
      evalLine_of_spaced hline]
    exact Bool.eq_false_iff.2 fun h => hhash (hskip.1 h)
  · intro hcolon hlast last tail after htail
    have hreply := Session.reply_of_spaced hline hne hcolon last
    rw [Session.evalWords_readOperand hlast] at hreply
    have hbytes : encode line ≠ [] := encode_ne_nil hlne
    have h10 : 10 ∉ encode line := fun h => hnewline (mem_encode_newline.1 h)
    rw [Session.converse_line hbytes h10 htail (by rw [hreply]), hreply]
  · intro hhash number
    exact Batch.runLine_of_skipped (hskip.2 hhash) number
  · rintro hcolon last o ⟨htext, hnot, _, _⟩
    rw [Session.lineText?_encode] at htext
    cases htext
    rw [head?_trim_of_spaced hline] at hnot
    exact hnot hcolon
  · intro hcolon last
    rw [Session.reply_of_spaced hline hne hcolon last]

/-- A quoted word with white space and a `#` inside, and white space of several sorts between the
words. -/
theorem front_ends_agree_quoted :
    SameRequest ["eval", "'a #'", "+", "$_"] ["'a #'", "+", "$_"] ∧
    Spaced (["'a #'", "+", "$_"].map String.toList) "\u3000'a #'\t+  $_".toList ∧
    '\n' ∉ "\u3000'a #'\t+  $_".toList ∧
    ∃ r, (∀ read input, Command.run read input ["eval", "'a #'", "+", "$_"] = exitOf r) ∧
      Batch.run ("\n" ++ "\u3000'a #'\t+  $_" ++ "\n7") =
        Batch.run "\n" ++ Batch.report 2 (trim "\u3000'a #'\t+  $_") r ++ Batch.runLines 3 ["7"] ∧
      ∀ last, Session.converse last (splitAfter 10 (encode "\u3000'a #'\t+  $_" ++ [10])) =
        .onOut Session.prompt ++ shown r ++ Session.converse (Session.remembered last r) [] := by
  have hargs : SameRequest ["eval", "'a #'", "+", "$_"] ["'a #'", "+", "$_"] := .operator _ _ _
  have hline : Spaced (["'a #'", "+", "$_"].map String.toList) "\u3000'a #'\t+  $_".toList := by
    have hsplit : "\u3000'a #'\t+  $_".toList = ['\u3000'] ++ "'a #'".toList ++
        (['\t'] ++ "+".toList ++ ([' ', ' '] ++ "$_".toList ++ [])) := by decide
    have hquoted : IsWord "'a #'".toList :=
      .quoted (by decide : isQuote '\'' = true) (by decide : '\'' ∉ "a #".toList)
    have hplus : IsWord "+".toList :=
      .bare (by decide) (List.forall_mem_singleton.2 (by decide))
    have hvariable : IsWord "$_".toList :=
      .bare (by decide)
        (List.forall_mem_cons.2 ⟨by decide, List.forall_mem_singleton.2 (by decide)⟩)
    rw [hsplit]
    refine .cons (by decide) hquoted (by decide) ?_
    refine .cons (by decide) hplus (by decide) ?_
    exact .cons (by decide) hvariable (by decide) (.nil (by decide))
  have hnewline : '\n' ∉ "\u3000'a #'\t+  $_".toList := by decide
  obtain ⟨⟨r, _, hcommand, hbatch, hsession⟩, _⟩ := front_ends_agree hargs hline hnewline
  refine ⟨hargs, hline, hnewline, r, hcommand, ?_, fun last => ?_⟩
  · have hfirst : ∀ c ∈ "\n".toList.getLast?, c = '\n' := fun c hc => (Option.some_inj.1 hc).symm
    exact hbatch (by decide) "\n" "\n7" "7" hfirst (.more _)
  · exact hsession (by decide) (by decide) last [10] [] (.more [])

end ScriptCell
