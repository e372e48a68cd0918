import ScriptCell.Proofs.Session.Reply

/-!
# Histories of a session

A session is its lines answered one by one, each with the last result that the lines before it leave
(`converse_append`). That last result is the value of the latest line that was evaluated with
success, and undefined if the session was reset since or there is no such line (`isLatest_memory`).
`history_of_session` gathers what follows for a whole session: what each line finds and shows, that
nothing from before a reset is seen behind it, and that nothing behind the end of a session is seen
at all.
-/

namespace ScriptCell

namespace Session

/-! ## What lines leave behind -/

/-- The last result after some lines. -/
def memory (last : Value) (lines : List (List UInt8)) : Value :=
  lines.foldl (fun last line => (reply last line).last) last

/-- Some lines, each with the last result that it finds. -/
def trace : Value → List (List UInt8) → List (Value × List UInt8)
  | _, [] => []
  | last, line :: lines => (last, line) :: trace (reply last line).last lines

/-- What is written for lines that find these last results: for each a prompt and its answer. -/
def said : List (Value × List UInt8) → Output
  | [] => .empty
  | (last, line) :: rest => .onOut prompt ++ (reply last line).output ++ said rest

/-- What a line leaves behind that does not leave the last result alone: undefined if it resets the
session, a lone operand's own value, the negated operand, the result of an arithmetic operator, or
the truth value of a test. -/
inductive Leaves (last : Value) (line : List UInt8) : Value → Prop
  | reset : IsReset line → Leaves last line .undefined
  | operand {word : String} : HasWords line [word] → Leaves last line (readOperand last word)
  | negation {word : String} : HasWords line ["neg", word] →
      Leaves last line (readOperand last word).negate
  | arith {op : ArithOp} {lhs rhs : String} {v : Value} : HasWords line [lhs, op.symbol, rhs] →
      op.apply (readOperand last lhs) (readOperand last rhs) = .ok v → Leaves last line v
  | test {op : TestOp} {lhs rhs : String} {b : Bool} : HasWords line [lhs, op.symbol, rhs] →
      op.apply (readOperand last lhs) (readOperand last rhs) = .ok b → Leaves last line (.bool b)

/-- The value that the latest line leaves behind that leaves one; undefined if there is none. -/
inductive IsLatest : List (Value × List UInt8) → Value → Prop
  | start {tr : List (Value × List UInt8)} : (∀ e ∈ tr, Idle e.1 e.2) → IsLatest tr .undefined
  | left {before after : List (Value × List UInt8)} {last v : Value} {line : List UInt8} :
      Leaves last line v → (∀ e ∈ after, Idle e.1 e.2) →
      IsLatest (before ++ (last, line) :: after) v

section
variable {tr : List (Value × List UInt8)} {last v : Value} {line : List UInt8}

/-- A line leaves something behind only if it resets the session or is evaluated with success. -/
theorem Leaves.reset_or_evaluates (h : Leaves last line v) :
    IsReset line ∧ v = .undefined ∨ ∃ o, Evaluates last line o ∧ o.result = v := by
  cases h with
  | reset hreset => exact .inl ⟨hreset, rfl⟩
  | operand hwords => exact .inr ⟨_, evaluates_iff.2 ⟨_, hwords, .operand _⟩, rfl⟩
  | negation hwords => exact .inr ⟨_, evaluates_iff.2 ⟨_, hwords, .negation _⟩, rfl⟩
  | arith hwords happly => exact .inr ⟨_, evaluates_iff.2 ⟨_, hwords, .arith happly⟩, rfl⟩
  | test hwords happly => exact .inr ⟨_, evaluates_iff.2 ⟨_, hwords, .test happly⟩, rfl⟩

/-- What a line leaves behind is the last result after it. -/
theorem Leaves.reply_last (h : Leaves last line v) : (reply last line).last = v := by
  rcases h.reset_or_evaluates with ⟨hreset, rfl⟩ | ⟨o, hev, rfl⟩
  · rw [reply_of_isReset hreset]
  · rw [reply_of_evaluates hev]

/-- A line that is evaluated with success leaves something behind. -/
theorem Evaluates.exists_leaves {o : Outcome} (h : Evaluates last line o) :
    ∃ v, Leaves last line v := by
  obtain ⟨words, hwords, hgives⟩ := evaluates_iff.1 h
  cases hgives with
  | operand => exact ⟨_, .operand hwords⟩
  | negation => exact ⟨_, .negation hwords⟩
  | arith happly => exact ⟨_, .arith hwords happly⟩
  | test happly => exact ⟨_, .test hwords happly⟩

/-- **A line is idle exactly if it leaves nothing behind.** -/
theorem idle_iff_not_leaves : Idle last line ↔ ∀ v, ¬ Leaves last line v := by
  constructor
  · intro hidle v h
    rcases h.reset_or_evaluates with ⟨hreset, -⟩ | ⟨o, hev, -⟩
    · exact hidle.not_isReset hreset
    · exact hidle.not_evaluates o hev
  · intro h
    refine idle_iff.2 ⟨fun hreset => h _ (.reset hreset), fun o hev => ?_⟩
    obtain ⟨v, hleaves⟩ := hev.exists_leaves
    exact h v hleaves

/-- An idle line does not become the latest. -/
theorem IsLatest.concat_idle (h : IsLatest tr v) (hidle : Idle last line) :
    IsLatest (tr ++ [(last, line)]) v := by
  have hsnoc : ∀ {es : List (Value × List UInt8)}, (∀ e ∈ es, Idle e.1 e.2) →
      ∀ e ∈ es ++ [(last, line)], Idle e.1 e.2 := by
    intro es hes
    rw [List.forall_mem_append]
    exact ⟨hes, List.forall_mem_singleton.2 hidle⟩
  cases h with
  | start hall => exact .start (hsnoc hall)
  | left hleaves hall =>
    rw [List.append_assoc]
    exact .left hleaves (hsnoc hall)

/-- **One line keeps the last result the latest.** -/
theorem IsLatest.step (h : IsLatest tr last) (line : List UInt8) :
    IsLatest (tr ++ [(last, line)]) (reply last line).last := by
  by_cases hleaves : ∃ v, Leaves last line v
  · obtain ⟨v, hleaves⟩ := hleaves
    rw [hleaves.reply_last]
    exact .left hleaves nofun
  · have hidle : Idle last line := idle_iff_not_leaves.2 (not_exists.1 hleaves)
    rw [reply_last_of_idle hidle]
    exact h.concat_idle hidle

/-- Any number of lines keep the last result the latest. -/
theorem IsLatest.trace (h : IsLatest tr last) (lines : List (List UInt8)) :
    IsLatest (tr ++ Session.trace last lines) (memory last lines) := by
  induction lines generalizing tr last with
  | nil => simpa [Session.trace, memory] using h
  | cons line lines ih =>
    have hrest := ih (h.step line)
    rw [List.append_assoc] at hrest
    exact hrest

end

/-- **The last result is what the latest line leaves.** -/
theorem isLatest_memory (lines : List (List UInt8)) :
    IsLatest (trace .undefined lines) (memory .undefined lines) :=
  (IsLatest.start (List.forall_mem_nil _)).trace lines

/-- An operation that fails and a command leave it alone. -/
example : memory .undefined [encode "'a'\n", encode "_ - 1\n", encode ":last\n"] = .string "a" := by
  decide

/-! ## What lines write -/

/-- **A session is its lines answered one by one.** -/
theorem converse_append {before : List (List UInt8)} (h : ∀ line ∈ before, ¬ Ends line)
    (last : Value) (after : List (List UInt8)) :
    converse last (before ++ after) =
      said (trace last before) ++ converse (memory last before) after := by
  induction before generalizing last with
  | nil => exact (Output.empty_append _).symm
  | cons line before ih =>
    obtain ⟨hline, hbefore⟩ := List.forall_mem_cons.1 h
    rw [List.cons_append, converse, trace, said]
    simp only [reply_going_iff.2 hline]
    rw [ih hbefore, ← Output.append_assoc]
    rfl

/-- Nothing behind the end of a session is answered. -/
theorem converse_of_ends {line : List UInt8} (h : Ends line) (last : Value)
    (after : List (List UInt8)) :
    converse last (line :: after) = .onOut (prompt ++ parting line) := by
  rw [converse, reply_of_ends h, Output.onOut_append]
  rfl

/-- A newline behind the last line makes no difference. -/
theorem converse_concat_newline (lines : List (List UInt8)) (line : List UInt8) (last : Value) :
    converse last (lines ++ [line ++ [10]]) = converse last (lines ++ [line]) := by
  induction lines generalizing last with
  | nil =>
    show converse last [line ++ [10]] = converse last [line]
    unfold converse
    rw [reply_append_newline]
  | cons l lines ih => rw [List.cons_append, List.cons_append, converse, converse, ih]

/-! ## Whole sessions -/

/-- A session on the input answers the lines `before`, none of which ends it, and has `after` still
to read. -/
structure Reaches (input : List UInt8) (before after : List (List UInt8)) : Prop where
  lines : splitAfter 10 input = before ++ after
  going : ∀ line ∈ before, ¬ Ends line

namespace Reaches

variable {input line : List UInt8} {before after : List (List UInt8)}

/-- What a session has written and goes on with when it has answered some lines. -/
theorem run_eq (h : Reaches input before after) :
    run input = .onOut banner ++ said (trace .undefined before) ++
      converse (memory .undefined before) after := by
  rw [run, h.lines, converse_append h.going, Output.append_assoc]

/-- The lines that are answered are a whole input themselves. -/
theorem answered (h : Reaches input before after) : Reaches before.flatten before [] := by
  obtain ⟨hpieces, _⟩ := splitAfter_flatten_of_append h.lines
  exact ⟨hpieces.trans (List.append_nil before).symm, h.going⟩

/-- The lines that are still to be read are a whole input themselves. -/
theorem run_unread (h : Reaches input before after) :
    run after.flatten = .onOut banner ++ converse .undefined after := by
  obtain ⟨_, hpieces⟩ := splitAfter_flatten_of_append h.lines
  rw [run, hpieces]

/-- One more line is answered if it does not end the session. -/
theorem concat (h : Reaches input before (line :: after)) (hline : ¬ Ends line) :
    Reaches input (before ++ [line]) after := by
  refine ⟨?_, ?_⟩
  · rw [h.lines, List.append_assoc, List.singleton_append]
  · rw [List.forall_mem_append]
    exact ⟨h.going, List.forall_mem_singleton.2 hline⟩

/-- **Behind a reset a session goes on as it started.** -/
theorem run_of_isReset (h : Reaches input before (line :: after)) (hreset : IsReset line) :
    run input = .onOut banner ++ said (trace .undefined (before ++ [line])) ++
      converse .undefined after := by
  have hmemory : memory .undefined (before ++ [line]) = .undefined := by
    unfold memory
    rw [List.foldl_append, List.foldl_cons, List.foldl_nil, reply_of_isReset hreset]
  rw [(h.concat hreset.not_ends).run_eq, hmemory]

end Reaches

/-- A session answers all lines or comes to one that ends it. -/
theorem exists_reaches (input : List UInt8) : Reaches input (splitAfter 10 input) [] ∨
    ∃ before line after, Reaches input before (line :: after) ∧ Ends line := by
  cases hfind : (splitAfter 10 input).find? fun line => (reply .undefined line).stop with
  | none =>
    rw [List.find?_eq_none] at hfind
    refine .inl ⟨(List.append_nil _).symm, fun line hline => ?_⟩
    exact reply_going_iff.1 (Bool.eq_false_iff.2 (hfind line hline))
  | some line =>
    obtain ⟨hstop, before, after, hlines, hgoing⟩ := List.find?_eq_some_iff_append.1 hfind
    refine .inr ⟨before, line, after, ⟨hlines, fun l hl => ?_⟩, reply_stop_iff.1 hstop⟩
    have hl := hgoing l hl
    rw [Bool.not_eq_true'] at hl
    exact reply_going_iff.1 hl

/-- A newline at the end of the input makes no difference unless there is one. -/
theorem run_append_newline {input : List UInt8} (hne : input ≠ [])
    (h : input.getLast? ≠ some 10) : run (input ++ [10]) = run input := by
  obtain ⟨lines, line, hlines, hlines'⟩ := splitAfter_append_sep hne h
  rw [run, run, hlines', hlines, converse_concat_newline]

/-- **A session remembers its latest result, and nothing else.** Whenever a session has answered
some lines, its last result is what the latest of them leaves that leaves anything: a lone operand's
own value, the negated operand, the result of an operator, the truth value of a test, or undefined
at a reset; undefined too if there is no such line. What it has written is for each line the answer
to that line and the last result that it finds, and it is what a session on these lines alone writes
before it ends. Behind a reset it writes what a session on the rest alone writes behind its banner.
At the first line that is no text or asks to quit it ends, whatever stands behind. The last result
is left alone by all lines that are idle, which are those that neither reset nor are evaluated with
success, and among them the line at which a session ends. A last line without a newline is answered
as with one. -/
theorem history_of_session (input : List UInt8) :
    (∀ before after, Reaches input before after →
      IsLatest (trace .undefined before) (memory .undefined before) ∧
      run input = .onOut banner ++ said (trace .undefined before) ++
        converse (memory .undefined before) after ∧
      run before.flatten = .onOut banner ++ said (trace .undefined before) ++
        .onOut (prompt ++ "\n" ++ farewell)) ∧
    (∀ before line after, Reaches input before (line :: after) → IsReset line →
      run input = .onOut banner ++ said (trace .undefined (before ++ [line])) ++
        converse .undefined after ∧
      run after.flatten = .onOut banner ++ converse .undefined after) ∧
    (∀ before line after, Reaches input before (line :: after) → Ends line →
      run input = .onOut banner ++ said (trace .undefined before) ++
        .onOut (prompt ++ parting line)) ∧
    (Reaches input (splitAfter 10 input) [] ∨
      ∃ before line after, Reaches input before (line :: after) ∧ Ends line) ∧
    (∀ last line, (Idle last line ↔ ¬ IsReset line ∧ ∀ o, ¬ Evaluates last line o) ∧
      (Idle last line ↔ ∀ v, ¬ Leaves last line v) ∧
      (∀ v, Leaves last line v → (reply last line).last = v) ∧
      (Idle last line → (reply last line).last = last) ∧ (Ends line → Idle last line)) ∧
    (input ≠ [] → input.getLast? ≠ some 10 → run (input ++ [10]) = run input) := by
  refine ⟨fun before after h => ⟨isLatest_memory before, h.run_eq, h.answered.run_eq⟩, ?_, ?_,
    exists_reaches input, ?_, run_append_newline⟩
  · intro before line after h hreset
    exact ⟨h.run_of_isReset hreset, (h.concat hreset.not_ends).run_unread⟩
  · intro before line after h hends
    rw [h.run_eq, converse_of_ends hends]
  · exact fun last line => ⟨idle_iff, idle_iff_not_leaves, fun v h => h.reply_last,
      reply_last_of_idle, fun h => h.idle last⟩

end Session

end ScriptCell
