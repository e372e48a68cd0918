import ScriptCell.Proofs.Batch.Entries
import ScriptCell.Proofs.FrontEnds

/-!
# Exit codes

Arguments are a request of one of the commands (`IsRequest`) or a misuse (`Misused`), and never
both. A misuse exits with 2. A request exits with 1 if something of it fails (`Failed` lists what
can) and with 0 otherwise. Nothing is written to the error stream exactly in the last case, so the
exit code and the streams agree (`exit_code_tells_the_truth`).
-/

namespace ScriptCell

/-! ## Streams -/

theorem complaint_ne_empty (message : String) : Command.complaint message ≠ "" := by
  simp [Command.complaint, bold, String.append_eq_empty_iff]

theorem LineError.diagnose_ne_empty (label : String) (e : LineError) : e.diagnose label ≠ "" := by
  simp [LineError.diagnose, diagnosis, bold, String.append_eq_empty_iff]

namespace Batch

/-- No line fails exactly if every expression among the lines is evaluated. -/
theorem failures_run_eq_zero_iff {text : String} : (run text).failures = 0 ↔
    ∀ line ∈ lines text, IsExpression line → ∀ e, evalLine line ≠ .error e := by
  rw [run_eq, failures, List.countP_eq_zero]
  refine forall₂_congr fun line _ => ?_
  rw [fails, Bool.and_eq_true, Bool.not_eq_true', isSkipped_eq_false_iff, not_and]
  refine imp_congr_right fun _ => ?_
  cases evalLine line with
  | ok o => refine iff_of_true (fun h => ?_) (fun e h => ?_) <;> cases h
  | error e => exact iff_of_false (fun h => h rfl) (fun h => h e rfl)

/-- Lines that do not fail write nothing to the error stream. -/
theorem err_runLines {number : Nat} {ls : List String} (h : (runLines number ls).failures = 0) :
    (runLines number ls).output.err = "" := by
  induction ls generalizing number with
  | nil => rfl
  | cons line ls ih =>
    rw [runLines, Result.failures_append, Nat.add_eq_zero_iff] at h
    have hline : (runLine number line).output.err = "" := by
      have hfailures := h.1
      cases hskip : isSkipped (trim line).toList with
      | true =>
        rw [runLine_of_skipped hskip]
        rfl
      | false =>
        rw [runLine_eq_report hskip] at hfailures ⊢
        cases heval : evalLine line with
        | ok o => rfl
        | error e =>
          rw [heval] at hfailures
          cases hfailures
    rw [runLines, Result.output_append, Output.err_append, hline, ih h.2, String.empty_append]

end Batch

namespace Command

variable {args : List String} {c : Command} {e : UsageError} {read : String → PathContent}

/-! ## Requests and misuses -/

/-- The first arguments that ask for the usage text. -/
def helpNames : List String := ["-h", "--help", "help"]

/-- The other first arguments, and how many arguments they have behind them. -/
def arities : List (String × Nat) := [("eval", 3), ("neg", 1), ("coerce", 1), ("batch", 1)]

/-- The arguments that name a command. -/
inductive IsRequest : List String → Command → Prop
  | usage {name : String} {args : List String} : name ∈ helpNames → IsRequest (name :: args) .usage
  | evaluate {args words : List String} : SameRequest args words → IsRequest args (.evaluate words)
  | batch (path : String) : IsRequest ["batch", path] (.batch path)

/-- The arguments that name none: the first one is unknown, or is not followed by as many as it
has. -/
inductive Misused : List String → Prop
  | unknown {name : String} {args : List String} : name ∉ helpNames → name ∉ arities.map Prod.fst →
      Misused (name :: args)
  | arity {name : String} {n : Nat} {args : List String} : (name, n) ∈ arities → args.length ≠ n →
      Misused (name :: args)

/-- Arguments that name a command are read as this command. -/
theorem IsRequest.ofArgs_eq (h : IsRequest args c) : ofArgs args = .ok c := by
  cases h with
  | usage hname => exact if_pos (by simpa [helpNames] using hname)
  | evaluate h => cases h <;> rfl
  | batch path => rfl

/-- Arguments that name no command are refused. -/
theorem Misused.exists_ofArgs_eq (h : Misused args) : ∃ e, ofArgs args = .error e := by
  cases h with
  | @unknown name args hhelp hname =>
    simp only [helpNames, List.mem_cons, List.not_mem_nil, or_false] at hhelp
    simp only [arities, List.map_cons, List.map_nil, List.mem_cons, List.not_mem_nil, or_false,
      not_or] at hname
    obtain ⟨heval, hneg, hcoerce, hbatch⟩ := hname
    exact ⟨.unknownCommand name, (if_neg hhelp).trans <| (if_neg heval).trans <|
      (if_neg hneg).trans <| (if_neg hcoerce).trans (if_neg hbatch)⟩
  | @arity name n args hname hlength =>
    simp only [arities, List.mem_cons, Prod.mk.injEq, List.not_mem_nil, or_false] at hname
    rcases hname with ⟨rfl, rfl⟩ | ⟨rfl, rfl⟩ | ⟨rfl, rfl⟩ | ⟨rfl, rfl⟩
    · match args, hlength with
      | [], _ | [_], _ | [_, _], _ | _ :: _ :: _ :: _ :: _, _ => exact ⟨.evalArguments, rfl⟩
    · match args, hlength with
      | [], _ | _ :: _ :: _, _ => exact ⟨.negArguments, rfl⟩
    · match args, hlength with
      | [], _ | _ :: _ :: _, _ => exact ⟨.coerceArguments, rfl⟩
    · match args, hlength with
      | [], _ | _ :: _ :: _, _ => exact ⟨.batchArguments, rfl⟩

/-- Arguments, if there are any, are a request or a misuse. -/
theorem isRequest_or_misused (hne : args ≠ []) : (∃ c, IsRequest args c) ∨ Misused args := by
  obtain ⟨name, args, rfl⟩ := List.exists_cons_of_ne_nil hne
  by_cases hhelp : name ∈ helpNames
  · exact .inl ⟨_, .usage hhelp⟩
  by_cases hname : name ∈ arities.map Prod.fst
  · obtain ⟨⟨_, n⟩, hmem, rfl⟩ := List.mem_map.1 hname
    by_cases hlength : args.length = n
    · refine .inl ?_
      simp only [arities, List.mem_cons, Prod.mk.injEq, List.not_mem_nil, or_false] at hmem
      rcases hmem with ⟨rfl, rfl⟩ | ⟨rfl, rfl⟩ | ⟨rfl, rfl⟩ | ⟨rfl, rfl⟩
      · match args, hlength with
        | [a, op, b], _ => exact ⟨_, .evaluate (.operator a op b)⟩
      · obtain ⟨a, rfl⟩ := List.length_eq_one_iff.1 hlength
        exact ⟨_, .evaluate (.negation a)⟩
      · obtain ⟨a, rfl⟩ := List.length_eq_one_iff.1 hlength
        exact ⟨_, .evaluate (.operand a)⟩
      · obtain ⟨path, rfl⟩ := List.length_eq_one_iff.1 hlength
        exact ⟨_, .batch path⟩
    · exact .inr (.arity hmem hlength)
  · exact .inr (.unknown hhelp hname)

/-! ## What fails -/

/-- What can fail of a request: the evaluation, or the file of a batch, or a line in it. -/
inductive Failed (read : String → PathContent) : List String → Prop
  | evaluation {a op b : String} {e : LineError} : evalWords readOperand [a, op, b] = .error e →
      Failed read ["eval", a, op, b]
  | missing {path : String} : read path = .missing → Failed read ["batch", path]
  | unreadable {path reason : String} : read path = .unreadable reason → Failed read ["batch", path]
  | notText {path : String} {bytes : List UInt8} : read path = .file bytes →
      (∀ text, bytes ≠ encode text) → Failed read ["batch", path]
  | line {path text line : String} {e : LineError} : read path = .file (encode text) →
      line ∈ lines text → Batch.IsExpression line → evalLine line = .error e →
      Failed read ["batch", path]

variable {input : List UInt8}

/-- A batch depends on what is at its path only. -/
theorem run_batch {path : String} {content : PathContent} (hread : read path = content) :
    run read input ["batch", path] = runBatch path content := congrArg (runBatch path) hread

/-- A misuse exits with 2 and writes to the error stream only. -/
theorem Misused.run_eq (h : Misused args) (read : String → PathContent) (input : List UInt8) :
    (run read input args).code = 2 ∧ (run read input args).output.out = "" ∧
      (run read input args).output.err ≠ "" := by
  obtain ⟨e, he⟩ := h.exists_ofArgs_eq
  have hrun : run read input args = refuse e := by
    rw [run, he]
  rw [hrun]
  exact ⟨rfl, rfl, fun herr => complaint_ne_empty _
    (String.append_eq_empty_iff.1 (String.append_eq_empty_iff.1 herr).1).1⟩

/-- **What fails exits with 1** and writes to the error stream, and but for a batch to no other. -/
theorem Failed.run_eq (h : Failed read args) (input : List UInt8) :
    (run read input args).code = 1 ∧ (run read input args).output.err ≠ "" ∧
      ((run read input args).output.out = "" ∨ ∃ path, args = ["batch", path]) := by
  cases h with
  | @evaluation a op b e he =>
    have hrun := run_of_sameRequest (.operator a op b) read input
    rw [he] at hrun
    rw [hrun]
    exact ⟨rfl, LineError.diagnose_ne_empty _ _, .inl rfl⟩
  | @missing path hread =>
    rw [run_batch hread]
    exact ⟨rfl, complaint_ne_empty _, .inr ⟨path, rfl⟩⟩
  | @unreadable path reason hread =>
    rw [run_batch hread]
    exact ⟨rfl, complaint_ne_empty _, .inr ⟨path, rfl⟩⟩
  | @notText path bytes hread hbytes =>
    rw [run_batch hread, runBatch_of_not_text hbytes]
    exact ⟨rfl, complaint_ne_empty _, .inr ⟨path, rfl⟩⟩
  | @line path text line e hread hline hexpr he =>
    have hfailures : (Batch.run text).failures ≠ 0 :=
      fun h0 => Batch.failures_run_eq_zero_iff.1 h0 line hline hexpr e he
    rw [run_batch hread, runBatch_encode, batchExit, if_neg hfailures]
    refine ⟨rfl, fun herr => ?_, .inr ⟨path, rfl⟩⟩
    have hnote := (String.append_eq_empty_iff.1 (String.append_eq_empty_iff.1 herr).2).2
    exact absurd hnote (by decide)

/-- **A request of which nothing fails exits with 0** and writes nothing to the error stream. -/
theorem IsRequest.run_eq (h : IsRequest args c) (hf : ¬ Failed read args) (input : List UInt8) :
    (run read input args).code = 0 ∧ (run read input args).output.err = "" := by
  cases h with
  | usage hname =>
    rw [run, (IsRequest.usage hname).ofArgs_eq]
    exact ⟨rfl, rfl⟩
  | @evaluate args words h =>
    rw [run_of_sameRequest h]
    cases heval : evalWords readOperand words with
    | ok o => exact ⟨rfl, rfl⟩
    | error e =>
      cases h with
      | operator a op b => exact absurd (.evaluation heval) hf
      | negation a | operand a => cases heval
  | batch path =>
    rw [run_batch rfl]
    cases hread : read path with
    | missing => exact absurd (.missing hread) hf
    | unreadable reason => exact absurd (.unreadable hread) hf
    | file bytes =>
      by_cases hbytes : ∃ text, bytes = encode text
      · obtain ⟨text, rfl⟩ := hbytes
        have hfailures : (Batch.run text).failures = 0 :=
          Batch.failures_run_eq_zero_iff.2 fun line hline hexpr e he =>
            hf (.line hread hline hexpr he)
        rw [runBatch_encode, batchExit, if_pos hfailures]
        exact ⟨rfl, Batch.err_runLines hfailures⟩
      · exact absurd (.notText hread (not_exists.1 hbytes)) hf

/-! ## Exit codes -/

/-- Of the requests, only an evaluation with an operator and a batch can fail. -/
theorem Failed.evaluation_or_batch (h : Failed read args) :
    (∃ a op b e, args = ["eval", a, op, b] ∧ evalWords readOperand [a, op, b] = .error e) ∨
      ∃ path, args = ["batch", path] := by
  cases h with
  | evaluation he => exact .inl ⟨_, _, _, _, rfl, he⟩
  | missing | unreadable | notText | line => exact .inr ⟨_, rfl⟩

/-- An evaluation without an operator never fails. -/
theorem not_failed_of_operand {name a : String} (hname : name ≠ "batch") :
    ¬ Failed read [name, a] := by
  intro h
  rcases h.evaluation_or_batch with ⟨_, _, _, _, hargs, -⟩ | ⟨path, hargs⟩
  · simp at hargs
  · exact hname (List.cons.inj hargs).1

/-- Equality and difference never fail. -/
theorem not_failed_of_equality {a op b : String} (hop : op = "==" ∨ op = "!=") :
    ¬ Failed read ["eval", a, op, b] := by
  intro h
  rcases h.evaluation_or_batch with ⟨a', op', b', e, hargs, he⟩ | ⟨path, hargs⟩
  · obtain ⟨rfl, rfl, rfl⟩ : a = a' ∧ op = op' ∧ b = b' := by simpa using hargs
    rw [evalWords] at he
    rcases hop with rfl | rfl
    · cases (evalOperator_test .equal _ _).symm.trans he
    · cases (evalOperator_test .differ _ _).symm.trans he
  · simp at hargs

/-- **The exit code tells the truth.** Take what a run on arguments, of which there are some, leaves
behind. Its code is 0, 1 or 2.

It is 0 exactly if nothing is written to the error stream. It is 2 exactly if the arguments are
misused: the first one names no command or has a wrong number of arguments behind it; then nothing
is written to the output stream. It is 1 exactly if something fails: the evaluation that `eval` asks
for, where again nothing is written to the output stream, or the file of a batch, which is missing,
unreadable, no text, or has a line that fails.

With one argument `neg` and `coerce` exit with 0, and so does `eval` with `==` or `!=`, whatever the
operands are. -/
theorem exit_code_tells_the_truth (read : String → PathContent) (input : List UInt8)
    {args : List String} {e : Exit} (hargs : args ≠ []) (he : run read input args = e) :
    (e.code = 0 ∨ e.code = 1 ∨ e.code = 2) ∧
    (e.code = 0 ↔ e.output.err = "") ∧
    (e.code = 2 ↔ Misused args) ∧ (e.code = 2 → e.output.out = "") ∧
    (e.code = 1 ↔ Failed read args) ∧
    (∀ a op b, args = ["eval", a, op, b] → e.code = 1 → e.output.out = "") ∧
    (∀ a, args = ["neg", a] ∨ args = ["coerce", a] → e.code = 0) ∧
    (∀ a op b, args = ["eval", a, op, b] → op = "==" ∨ op = "!=" → e.code = 0) := by
  subst he
  have hequality (a op b : String) (h : args = ["eval", a, op, b]) (hop : op = "==" ∨ op = "!=") :
      (run read input args).code = 0 := by
    subst h
    exact ((IsRequest.evaluate (.operator a op b)).run_eq (not_failed_of_equality hop) input).1
  have hoperand (a : String) (h : args = ["neg", a] ∨ args = ["coerce", a]) :
      (run read input args).code = 0 := by
    rcases h with rfl | rfl
    · exact ((IsRequest.evaluate (.negation a)).run_eq (not_failed_of_operand (by decide)) input).1
    · exact ((IsRequest.evaluate (.operand a)).run_eq (not_failed_of_operand (by decide)) input).1
  have hrefused (h : (run read input args).code ≠ 2) : ¬ Misused args :=
    fun hmisused => h (hmisused.run_eq read input).1
  by_cases hfailed : Failed read args
  · obtain ⟨hcode, herr, hout⟩ := hfailed.run_eq input
    have hmisused := hrefused (by omega)
    refine ⟨.inr (.inl hcode), iff_of_false (by omega) herr, iff_of_false (by omega) hmisused,
      by omega, iff_of_true hcode hfailed, fun a op b h _ => hout.resolve_right ?_, hoperand,
      hequality⟩
    rintro ⟨path, hpath⟩
    rw [h] at hpath
    simp at hpath
  rcases isRequest_or_misused hargs with ⟨c, hrequest⟩ | hmisused
  · obtain ⟨hcode, herr⟩ := hrequest.run_eq hfailed input
    have hmisused := hrefused (by omega)
    exact ⟨.inl hcode, iff_of_true hcode herr, iff_of_false (by omega) hmisused, by omega,
      iff_of_false (by omega) hfailed, by omega, hoperand, hequality⟩
  · obtain ⟨hcode, hout, herr⟩ := hmisused.run_eq read input
    exact ⟨.inr (.inr hcode), iff_of_false (by omega) herr, iff_of_true hcode hmisused,
      fun _ => hout, iff_of_false (by omega) hfailed, fun _ _ _ _ _ => hout, hoperand, hequality⟩

/-- A batch in which a line fails behind one that does not, and a variable that is compared with
itself. -/
theorem exit_code_of_batch_and_equality :
    ["batch", "sums"] ≠ [] ∧ ["eval", "$x", "==", "$x"] ≠ [] ∧
    Failed (fun _ => .file (encode "1 + 2\ntrue - 1")) ["batch", "sums"] ∧
    (run (fun _ => .file (encode "1 + 2\ntrue - 1")) [] ["batch", "sums"]).code = 1 ∧
    (run (fun _ => .missing) [] ["eval", "$x", "==", "$x"]).output.err = "" := by
  have hbatch : ["batch", "sums"] ≠ [] := List.cons_ne_nil _ _
  have heval : ["eval", "$x", "==", "$x"] ≠ [] := List.cons_ne_nil _ _
  have hexpr : Batch.IsExpression "true - 1" := Batch.isSkipped_eq_false_iff.1 rfl
  have hline : evalLine "true - 1" = .error (.value (.incompatible .sub .bool .number)) := rfl
  have hfailed : Failed (fun _ => .file (encode "1 + 2\ntrue - 1")) ["batch", "sums"] :=
    .line rfl (by decide) hexpr hline
  obtain ⟨-, -, -, -, hcode, -⟩ := exit_code_tells_the_truth _ [] hbatch rfl
  obtain ⟨-, herr, -, -, -, -, -, hequality⟩ :=
    exit_code_tells_the_truth (fun _ => .missing) [] heval rfl
  exact ⟨hbatch, heval, hfailed, hcode.2 hfailed, herr.1 (hequality _ _ _ rfl (.inl rfl))⟩

end Command

end ScriptCell
