import ScriptCell.Timing.Case
import ScriptCell.Timing.Measure

/-!
# What measuring does

A history lists what was done so far: readings of the clock and executed operations. A clock is any
function of the history, so it may show whatever it likes, and an operation has one result that it
always gives.

A pass that is not cut short puts one operation into the history for each step (`Timing.run_pass`),
and a timed pass a reading of the clock before and behind them. So the history of a measurement that
succeeds is that of the warmup passes followed by that of the timed passes, and its totals are the
times between the two readings of each timed pass (`Timing.measured_of_completes`). A measurement
that fails does so at its first operation (`Timing.measured_of_failsWith`).
-/

namespace ScriptCell.Timing

open List (replicate)

/-! ## Histories -/

/-- What measuring does. -/
inductive Event where
  /-- The clock is read. -/
  | reading
  /-- The operation is executed. -/
  | operation
  deriving DecidableEq

/-- Computations that keep a history, in the order of the events. -/
abbrev Recorded := StateM (List Event)

variable {α : Type}

/-- Reads a clock that shows `time h` after the history `h`. -/
def readClock (time : List Event → Nat) : Recorded Nat := fun h => (time h, h ++ [.reading])

@[simp] theorem run_readClock (time : List Event → Nat) (h : List Event) :
    (readClock time).run h = pure (time h, h ++ [.reading]) := rfl

/-- Executes an operation that always gives the result `r`. -/
def operate (r : Except Error α) : Recorded (Except Error α) := fun h => (r, h ++ [.operation])

/-- A measurement of an operation that always gives the result `r`: what it returns, and its
history. -/
def measured (time : List Event → Nat) (r : Except Error α) (n : Counts) :
    Except Error (List Nat) × List Event :=
  (measure (readClock time) (operate r) n).run []

/-- The events of a timed pass. -/
def timedPass (ops : Nat) : List Event := .reading :: (replicate ops .operation ++ [.reading])

/-- The history of `k` timed passes behind the warmup passes. -/
def historyUpTo (n : Counts) (k : Nat) : List Event :=
  replicate (n.warmup * n.ops) .operation ++ (replicate k (timedPass n.ops)).flatten

/-- The time between the readings of a timed pass that begins after the history `h`. -/
def elapsed (time : List Event → Nat) (ops : Nat) (h : List Event) : Nat :=
  time (h ++ .reading :: replicate ops .operation) - time h

theorem count_timedPass (ops : Nat) : (timedPass ops).count .operation = ops := by
  simp [timedPass]

/-- Operations are executed in warmup passes and in timed passes alike. -/
theorem count_historyUpTo (n : Counts) (k : Nat) :
    (historyUpTo n k).count .operation = (n.warmup + k) * n.ops := by
  rw [historyUpTo, List.count_append, List.count_replicate_self, List.count_flatten,
    List.map_replicate, count_timedPass, List.sum_replicate_nat, Nat.add_mul]

/-! ## Measurements that succeed -/

variable {r : Except Error α} {e : Error} {ops : Nat}

/-- Whether a pass of `ops` operations with the result `r` is not cut short. -/
def Passes (r : Except Error α) (ops : Nat) : Prop := ops = 0 ∨ ∃ a, r = .ok a

/-- A pass executes each of its operations. -/
theorem run_pass (hp : Passes r ops) (h : List Event) :
    (runPass (operate r) ops).run h = (.ok (), h ++ replicate ops .operation) := by
  induction ops generalizing h with
  | zero => rw [List.replicate_zero, List.append_nil]; rfl
  | succ ops ih =>
    rcases hp with hp | ⟨a, rfl⟩
    · cases hp
    · have hrest := ih (.inr ⟨a, rfl⟩) (h ++ [.operation])
      rwa [List.append_assoc, List.singleton_append, ← List.replicate_succ] at hrest

/-- Warmup passes execute their operations and do not read the clock. -/
theorem run_warmup (hp : Passes r ops) (n : Nat) (h : List Event) :
    (runWarmup (operate r) ops n).run h = (.ok (), h ++ replicate (n * ops) .operation) := by
  induction n generalizing h with
  | zero => rw [Nat.zero_mul, List.replicate_zero, List.append_nil]; rfl
  | succ n ih =>
    rw [runWarmup, StateT.run_bind, run_pass hp]
    refine (ih _).trans ?_
    rw [List.append_assoc, List.replicate_append_replicate, Nat.succ_mul, Nat.add_comm]

/-- Timed passes add their times to the totals, those of the last pass at the end. -/
theorem run_timed (time : List Event → Nat) (hp : Passes r ops) (totals : List Nat) (n : Nat)
    (h : List Event) :
    (runTimed (readClock time) (operate r) ops totals n).run h =
      (.ok (totals.reverse ++ (List.range n).map fun k =>
          elapsed time ops (h ++ (replicate k (timedPass ops)).flatten)),
        h ++ (replicate n (timedPass ops)).flatten) := by
  induction n generalizing totals h with
  | zero => simp [runTimed]; rfl
  | succ n ih =>
    have hpass : h ++ [.reading] ++ replicate ops .operation ++ [.reading] =
        h ++ timedPass ops := by
      simp [timedPass]
    have hbegin : h ++ [.reading] ++ replicate ops .operation =
        h ++ .reading :: replicate ops .operation :=
      List.append_assoc ..
    rw [runTimed, StateT.run_bind, run_readClock, pure_bind, StateT.run_bind, run_pass hp]
    refine (ih _ _).trans ?_
    rw [hpass, hbegin, List.range_succ_eq_map, List.map_cons, List.map_map, List.reverse_cons,
      List.append_assoc, List.replicate_succ, List.flatten_cons, List.append_assoc]
    refine congrArg (fun ts => (Except.ok (totals.reverse ++ ts), _)) ?_
    rw [List.singleton_append, List.replicate_zero, List.flatten_nil, List.append_nil]
    refine congrArg (List.cons _) (List.map_congr_left fun k _ => ?_)
    rw [Function.comp_apply, List.replicate_succ, List.flatten_cons, List.append_assoc]

/-- The measurements that never come upon an operation that fails. -/
def Completes (r : Except Error α) (n : Counts) : Prop :=
  Passes r n.ops ∨ n.warmup + n.iterations = 0

/-- **A measurement that completes** executes the operations of all passes. Its totals are the times
of the timed passes in their order. -/
theorem measured_of_completes (time : List Event → Nat) {n : Counts} (hc : Completes r n) :
    measured time r n =
      (.ok ((List.range n.iterations).map fun k => elapsed time n.ops (historyUpTo n k)),
        historyUpTo n n.iterations) := by
  rcases hc with hp | hnone
  · rw [measured, measure, StateT.run_bind, run_warmup hp, List.nil_append]
    exact run_timed time hp [] n.iterations _
  · obtain ⟨iterations, warmup, ops⟩ := n
    obtain ⟨rfl, rfl⟩ : warmup = 0 ∧ iterations = 0 := Nat.add_eq_zero_iff.1 hnone
    rw [historyUpTo, Nat.zero_mul]
    rfl

/-! ## Measurements that fail -/

/-- The measurements that come upon an operation that fails with `e`. -/
def FailsWith (r : Except Error α) (n : Counts) (e : Error) : Prop :=
  r = .error e ∧ 0 < n.ops ∧ 0 < n.warmup + n.iterations

theorem completes_or_failsWith (r : Except Error α) (n : Counts) :
    Completes r n ∨ ∃ e, FailsWith r n e := by
  rcases Nat.eq_zero_or_pos n.ops with hops | hops
  · exact .inl (.inl (.inl hops))
  rcases Nat.eq_zero_or_pos (n.warmup + n.iterations) with hnone | hpasses
  · exact .inl (.inr hnone)
  cases r with
  | ok a => exact .inl (.inl (.inr ⟨a, rfl⟩))
  | error e => exact .inr ⟨e, rfl, hops, hpasses⟩

theorem Completes.not_failsWith {n : Counts} (hc : Completes r n) : ¬ FailsWith r n e := by
  rintro ⟨rfl, hops, hpasses⟩
  rcases hc with (hzero | ⟨a, ha⟩) | hnone
  · exact absurd hzero (Nat.ne_of_gt hops)
  · cases ha
  · exact absurd hnone (Nat.ne_of_gt hpasses)

/-- A pass stops at its first operation if that fails. -/
theorem run_pass_error (e : Error) (hops : 0 < ops) (h : List Event) :
    (runPass (operate (.error e : Except Error α)) ops).run h = (.error e, h ++ [.operation]) := by
  cases ops with
  | zero => cases hops
  | succ ops => rfl

/-- **A measurement that fails** does so at its first operation, before which the clock is read at
most once. -/
theorem measured_of_failsWith (time : List Event → Nat) {n : Counts} (hf : FailsWith r n e) :
    measured time r n =
      (.error e, if n.warmup = 0 then [.reading, .operation] else [.operation]) := by
  obtain ⟨rfl, hops, hpasses⟩ := hf
  obtain ⟨iterations, warmup, ops⟩ := n
  cases warmup with
  | succ warmup =>
    rw [measured, measure, StateT.run_bind, runWarmup, StateT.run_bind, run_pass_error e hops]
    rfl
  | zero =>
    cases iterations with
    | zero => cases hpasses
    | succ iterations =>
      have htimed : (runTimed (readClock time) (operate (.error e : Except Error α)) ops []
          (iterations + 1)).run [] = (.error e, [.reading, .operation]) := by
        rw [runTimed, StateT.run_bind, run_readClock, pure_bind, StateT.run_bind,
          run_pass_error e hops]
        rfl
      exact htimed

/-! ## The cases of the table -/

/-- The operator of each case of the table has a rule for its operands. -/
theorem exists_run_eq_ok {c : Case} (hc : c ∈ cases) : ∃ a, c.run = .ok a := by
  have hok : ∀ c ∈ cases, c.run.isOk = true := by decide +kernel
  have h := hok c hc
  cases hrun : c.run with
  | ok a => exact ⟨a, rfl⟩
  | error e =>
    rw [hrun] at h
    cases h

/-- Every case of the table has a total for each timed pass. -/
theorem exists_totals (time : List Event → Nat) (n : Counts) {c : Case} (hc : c ∈ cases) :
    ∃ totals, (measured time c.run n).1 = .ok totals ∧ totals.length = n.iterations := by
  rw [measured_of_completes time (.inl (.inr (exists_run_eq_ok hc)))]
  exact ⟨_, rfl, by rw [List.length_map, List.length_range]⟩

/-- **Measuring an operation.** Take an operation that always gives the same result, any clock and
any counts.

The measurement fails with an error exactly if the operation fails with it and is executed at all:
there is an operation in a pass and a pass of either sort. Then the first operation is the last
event.

Otherwise all operations of all passes are executed, as many as there are in a pass times the passes
of both sorts, those of the warmup passes first and without a look at the clock. There is a total
for each timed pass, the time between the readings before and behind its operations, and none for a
warmup pass.

In particular every case of the table has a total for each timed pass. -/
theorem measure_of_constant_operation (time : List Event → Nat) (r : Except Error α) (n : Counts) :
    (∀ e, (measured time r n).1 = .error e ↔
      r = .error e ∧ 0 < n.ops ∧ 0 < n.warmup + n.iterations) ∧
    (∀ e, (measured time r n).1 = .error e →
      (measured time r n).2 = if n.warmup = 0 then [.reading, .operation] else [.operation]) ∧
    (∀ totals, (measured time r n).1 = .ok totals →
      (measured time r n).2 = replicate (n.warmup * n.ops) .operation ++
        (replicate n.iterations (timedPass n.ops)).flatten ∧
      (measured time r n).2.count .operation = (n.warmup + n.iterations) * n.ops ∧
      totals.length = n.iterations ∧
      totals = (List.range n.iterations).map fun k => elapsed time n.ops (historyUpTo n k)) ∧
    (∀ c ∈ cases, ∃ totals, (measured time c.run n).1 = .ok totals ∧
      totals.length = n.iterations) := by
  rcases completes_or_failsWith r n with hc | ⟨e, hf⟩
  · rw [measured_of_completes time hc]
    refine ⟨fun e => ?_, fun e he => ?_, fun totals ht => ?_, fun c => exists_totals time n⟩
    · exact iff_of_false nofun hc.not_failsWith
    · cases he
    · cases ht
      exact ⟨rfl, count_historyUpTo n n.iterations, by rw [List.length_map, List.length_range], rfl⟩
  · rw [measured_of_failsWith time hf]
    refine ⟨fun e' => ?_, fun _ _ => rfl, fun totals ht => ?_, fun c => exists_totals time n⟩
    · constructor
      · rintro ⟨⟩
        exact hf
      · rintro ⟨hr, -⟩
        exact congrArg Except.error (Except.error.inj (hf.1.symm.trans hr))
    · cases ht

/-- An operation that fails in the first of two timed passes, one that succeeds, with a clock that
counts the events, and a division of the table with as many operations as are usual. -/
theorem measure_of_failure_and_division :
    let e : Error := .incompatible .sub .string .number
    let failing : Except Error Unit := .error e
    let one : Except Error Unit := .ok ()
    ((measured List.length failing ⟨2, 0, 3⟩).1 = .error e ∧
      (measured List.length failing ⟨2, 0, 3⟩).2 = [.reading, .operation]) ∧
    ((measured List.length one ⟨2, 1, 3⟩).1 = .ok [4, 4] ∧
      (measured List.length one ⟨2, 1, 3⟩).2.count .operation = 9) ∧
    ∃ c ∈ cases, c.name = "div_zero" ∧
      ∃ totals, (measured List.length c.run ⟨10, 2, 100000⟩).1 = .ok totals ∧
      totals.length = 10 := by
  intro e failing one
  have hfails : (measured List.length failing ⟨2, 0, 3⟩).1 = .error e := rfl
  have hone : (measured List.length one ⟨2, 1, 3⟩).1 = .ok [4, 4] := rfl
  obtain ⟨-, hstop, -⟩ := measure_of_constant_operation List.length failing ⟨2, 0, 3⟩
  obtain ⟨-, -, hcount, -⟩ := measure_of_constant_operation List.length one ⟨2, 1, 3⟩
  obtain ⟨-, -, -, htable⟩ := measure_of_constant_operation List.length one ⟨10, 2, 100000⟩
  have hmem : ⟨"div_zero", .ofInt 1, .ofInt 0, .arith .div⟩ ∈ cases := by simp [cases]
  exact ⟨⟨hfails, hstop e hfails⟩, ⟨hone, (hcount _ hone).2.1⟩, _, hmem, rfl, htable _ hmem⟩

end ScriptCell.Timing
