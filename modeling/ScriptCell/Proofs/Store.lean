import ScriptCell.Proofs.Host

/-!
# What cells hold

A step writes a cell, or clears a cell and fails, or leaves all cells as they are
(`Step.run_cases`). So a cell holds what the last step left in it that wrote or cleared it, and a
fresh cell that none did is undefined (`Store.lastEffect_after`): one step keeps this
(`Store.LastEffect.concat`), and so do any number of them. What every step does to a store, and what
it answers, is in `Store.cells_hold_last_effect`.
-/

namespace ScriptCell

variable {n : Nat} {s : Store n} {i r : Fin n} {v : Value} {step : Step n} {steps : List (Step n)}

/-! ## One step -/

namespace Step

/-- The step writes a value to the cell `r`: a given value, a host value, a copy of another cell, or
what an operator, the negation or a conversion gives for the cells as they are. A host value whose
type is looked up and an operation are written only if they do not fail. -/
inductive Writes (s : Store n) (r : Fin n) : Value → Step n → Prop
  | constant (v : Value) : Writes s r v (.write r (.constant v))
  | host (t : HostType) (h : t.isStatic = true) (x : t.Carrier) :
      Writes s r (.ofHost t h x) (.write r (.host t h x))
  | native {t : HostType} {x : t.Carrier} {v : Value} : Value.ofNative t x = .ok v →
      Writes s r v (.write r (.native t x))
  | copy (a : Fin n) : Writes s r (s.get a) (.write r (.copy a))
  | arith {op : ArithOp} {a b : Fin n} {v : Value} : op.apply (s.get a) (s.get b) = .ok v →
      Writes s r v (.write r (.arith op a b))
  | negate (a : Fin n) : Writes s r (s.get a).negate (.write r (.negate a))
  | convert {a : Fin n} {target : Kind} {v : Value} : (s.get a).convertTo target = .ok v →
      Writes s r v (.write r (.convert a target))
  | trySet {t : HostType} {x : t.Carrier} {v : Value} : Value.ofNative t x = .ok v →
      Writes s r v (.trySet r t x)

/-- The step clears the cell `r` and finds that the type of its host value is not supported. -/
inductive Clears (r : Fin n) : Step n → Prop
  | trySet {t : HostType} {x : t.Carrier} {e : Error} : Value.ofNative t x = .error e →
      Clears r (.trySet r t x)

/-- The step neither writes nor clears the cell `i`. -/
def Spares (s : Store n) (i : Fin n) (step : Step n) : Prop :=
  (∀ v, ¬ step.Writes s i v) ∧ ¬ step.Clears i

/-- A write of a source writes the value that the source has. -/
theorem writes_write_iff {source : Source n} {i : Fin n} :
    (Step.write r source).Writes s i v ↔ i = r ∧ source.eval s = .ok v := by
  constructor
  · intro h
    cases h with
    | constant | host | copy | negate => exact ⟨rfl, rfl⟩
    | native h | arith h | convert h => exact ⟨rfl, h⟩
  · rintro ⟨rfl, h⟩
    cases source with
    | constant v =>
      obtain rfl := Except.ok.inj h
      exact .constant v
    | host t hstatic x =>
      obtain rfl := Except.ok.inj h
      exact .host t hstatic x
    | native t x => exact .native h
    | copy a =>
      obtain rfl := Except.ok.inj h
      exact .copy a
    | arith op a b => exact .arith h
    | negate a =>
      obtain rfl := Except.ok.inj h
      exact .negate a
    | convert a target => exact .convert h

theorem Writes.run_eq (h : step.Writes s r v) : step.run s = (s.set r v, .ok (.written v)) := by
  cases step with
  | write i source =>
    obtain ⟨rfl, heval⟩ := writes_write_iff.1 h
    simp only [run, heval]
  | trySet i t x =>
    cases h with
    | trySet h => exact run_trySet_of_ok h s r
  | test | views => cases h

theorem Clears.run_eq (h : step.Clears r) (s : Store n) :
    ∃ e, step.run s = (s.set r .undefined, .error e) := by
  cases h with
  | trySet h => exact ⟨_, run_trySet_of_error h s r⟩

/-- **What a step can do**: write a cell, clear a cell and fail, or leave all cells as they are. In
the last case it is a test or a look, or a write that fails. -/
theorem run_cases (s : Store n) (step : Step n) :
    (∃ r v, step.Writes s r v) ∨ (∃ r, step.Clears r) ∨
      (∀ i, step.Spares s i) ∧ (step.run s).1 = s ∧ ∀ v, (step.run s).2 ≠ .ok (.written v) := by
  cases step with
  | write r source =>
    cases h : source.eval s with
    | ok v => exact .inl ⟨r, v, writes_write_iff.2 ⟨rfl, h⟩⟩
    | error e =>
      refine .inr (.inr ⟨fun i => ⟨?_, ?_⟩, ?_, ?_⟩)
      · intro v hv
        cases h.symm.trans (writes_write_iff.1 hv).2
      · rintro ⟨⟩
      · simp only [run, h]
      · simp [run, h]
  | trySet r t x =>
    cases h : Value.ofNative t x with
    | ok v => exact .inl ⟨r, v, .trySet h⟩
    | error e => exact .inr (.inl ⟨r, .trySet h⟩)
  | test op a b =>
    refine .inr (.inr ⟨fun i => ⟨?_, ?_⟩, rfl, fun v => ?_⟩)
    · rintro v ⟨⟩
    · rintro ⟨⟩
    · rw [run]
      cases op.apply (s.get a) (s.get b) <;> simp [Except.map]
  | views a =>
    refine .inr (.inr ⟨fun i => ⟨?_, ?_⟩, rfl, ?_⟩)
    · rintro v ⟨⟩
    · rintro ⟨⟩
    · rintro v ⟨⟩

/-- A cell that a step spares holds what it held. -/
theorem get_run_of_spares (h : step.Spares s i) : (step.run s).1.get i = s.get i := by
  rcases step.run_cases s with ⟨r, v, hw⟩ | ⟨r, hc⟩ | ⟨-, hs, -⟩
  · have hne : r ≠ i := by
      rintro rfl
      exact h.1 v hw
    rw [hw.run_eq, Store.get_set_of_ne s hne]
  · have hne : r ≠ i := by
      rintro rfl
      exact h.2 hc
    obtain ⟨e, he⟩ := hc.run_eq s
    rw [he, Store.get_set_of_ne s hne]
  · rw [hs]

/-- A step answers with the value that it has written. -/
theorem run_eq_written_iff : (step.run s).2 = .ok (.written v) ↔ ∃ r, step.Writes s r v := by
  constructor
  · intro h
    rcases step.run_cases s with ⟨r, w, hw⟩ | ⟨r, hc⟩ | ⟨-, -, hno⟩
    · rw [hw.run_eq] at h
      cases h
      exact ⟨r, hw⟩
    · obtain ⟨e, he⟩ := hc.run_eq s
      rw [he] at h
      cases h
    · exact absurd h (hno v)
  · rintro ⟨r, hw⟩
    rw [hw.run_eq]

/-- A step that fails and does not fill a cell from the host leaves all cells as they are. -/
theorem run_of_error {e : Error} (hstep : ∀ r t x, step ≠ .trySet r t x)
    (h : (step.run s).2 = .error e) : (step.run s).1 = s := by
  rcases step.run_cases s with ⟨r, v, hw⟩ | ⟨r, hc⟩ | ⟨-, hs, -⟩
  · rw [hw.run_eq] at h
    cases h
  · cases hc with
    | trySet _ => exact absurd rfl (hstep _ _ _)
  · exact hs

/-- Filling a cell from the host, if it fails, leaves exactly this cell undefined. -/
theorem get_run_trySet_of_error {t : HostType} {x : t.Carrier} {e : Error}
    (h : ((Step.trySet r t x).run s).2 = .error e) (i : Fin n) :
    ((Step.trySet r t x).run s).1.get i = if i = r then .undefined else s.get i := by
  cases hx : Value.ofNative t x with
  | ok v =>
    rw [run_trySet_of_ok hx] at h
    cases h
  | error e' =>
    rw [run_trySet_of_error hx]
    split
    · next hi => rw [hi, Store.get_set_self]
    · next hi => rw [Store.get_set_of_ne s (Ne.symm hi)]

end Step

/-! ## Whole runs -/

namespace Store

/-- The store after some steps. -/
def after (s : Store n) (steps : List (Step n)) : Store n :=
  steps.foldl (fun s step => (step.run s).1) s

/-- Some steps, each with the store that it finds. -/
def history : Store n → List (Step n) → List (Store n × Step n)
  | _, [] => []
  | s, step :: steps => (s, step) :: (step.run s).1.history steps

/-- What the last step left in the cell `i` that wrote or cleared it; a cell that none did is
undefined. -/
inductive LastEffect (i : Fin n) : List (Store n × Step n) → Value → Prop
  | none {tr : List (Store n × Step n)} : (∀ e ∈ tr, e.2.Spares e.1 i) → LastEffect i tr .undefined
  | written {before later : List (Store n × Step n)} {s : Store n} {step : Step n} {v : Value} :
      step.Writes s i v → (∀ e ∈ later, e.2.Spares e.1 i) →
      LastEffect i (before ++ (s, step) :: later) v
  | cleared {before later : List (Store n × Step n)} {s : Store n} {step : Step n} :
      step.Clears i → (∀ e ∈ later, e.2.Spares e.1 i) →
      LastEffect i (before ++ (s, step) :: later) .undefined

section
variable {tr : List (Store n × Step n)}

/-- A step that spares the cell is not the last one. -/
theorem LastEffect.concat_spares (h : LastEffect i tr v) (hs : step.Spares s i) :
    LastEffect i (tr ++ [(s, step)]) v := by
  have hsnoc : ∀ {es : List (Store n × Step n)}, (∀ e ∈ es, e.2.Spares e.1 i) →
      ∀ e ∈ es ++ [(s, step)], e.2.Spares e.1 i := by
    intro es hes
    rw [List.forall_mem_append]
    exact ⟨hes, List.forall_mem_singleton.2 hs⟩
  cases h with
  | none hall => exact .none (hsnoc hall)
  | written hw hall =>
    rw [List.append_assoc]
    exact .written hw (hsnoc hall)
  | cleared hc hall =>
    rw [List.append_assoc]
    exact .cleared hc (hsnoc hall)

/-- **One step keeps in a cell what was last left in it.** -/
theorem LastEffect.concat (h : LastEffect i tr (s.get i)) (step : Step n) :
    LastEffect i (tr ++ [(s, step)]) ((step.run s).1.get i) := by
  by_cases hw : ∃ v, step.Writes s i v
  · obtain ⟨v, hw⟩ := hw
    rw [hw.run_eq, get_set_self]
    exact .written hw nofun
  by_cases hc : step.Clears i
  · obtain ⟨e, he⟩ := hc.run_eq s
    rw [he, get_set_self]
    exact .cleared hc nofun
  · have hs : step.Spares s i := ⟨not_exists.1 hw, hc⟩
    rw [Step.get_run_of_spares hs]
    exact h.concat_spares hs

/-- Any number of steps do. -/
theorem LastEffect.after (h : LastEffect i tr (s.get i)) (steps : List (Step n)) :
    LastEffect i (tr ++ s.history steps) ((s.after steps).get i) := by
  induction steps generalizing s tr with
  | nil => simpa [history, Store.after] using h
  | cons step steps ih =>
    have hrest := ih (h.concat step)
    rw [List.append_assoc] at hrest
    exact hrest

end

/-- **A cell of a store that was fresh holds what was last left in it.** -/
theorem lastEffect_after (i : Fin n) (steps : List (Step n)) :
    LastEffect i ((fresh n).history steps) (((fresh n).after steps).get i) := by
  have hfresh : LastEffect i [] ((fresh n).get i) := by
    rw [get_fresh]
    exact .none (List.forall_mem_nil _)
  exact hfresh.after steps

/-- A sum of a cell with itself, a conversion that fails and a look. -/
example : ((fresh 2).after [.write 0 (.constant (.string "a")), .write 0 (.arith .add 0 0),
    .write 1 (.copy 0), .write 0 (.convert 0 .variableRef), .views 0]).toList =
      [.string "aa", .string "aa"] := by
  decide

/-- A cell that all steps spare holds what it held. -/
theorem get_after_of_spares (h : ∀ e ∈ s.history steps, e.2.Spares e.1 i) :
    (s.after steps).get i = s.get i := by
  induction steps generalizing s with
  | nil => rfl
  | cons step steps ih =>
    obtain ⟨hstep, hsteps⟩ := List.forall_mem_cons.1 h
    exact (ih hsteps).trans (Step.get_run_of_spares hstep)

/-- The trace of a run has the answer to each step and the store behind it. -/
theorem trace_eq_map_history (s : Store n) (steps : List (Step n)) :
    s.trace steps = (s.history steps).map fun e => ((e.2.run e.1).2, (e.2.run e.1).1) := by
  induction steps generalizing s with
  | nil => rfl
  | cons step steps ih =>
    rw [trace, history, List.map_cons, ← ih]

/-- **Cells hold what was last left in them.** After any steps on fresh cells, each cell holds the
value of the last step that wrote it, computed from the cells as that step found them, unless it was
cleared since or none wrote it; then it is undefined. A step answers with a value exactly if it
writes that value to a cell. A step that fails leaves all cells as they are, but for filling a cell
from the host, which then leaves exactly this cell undefined. Tests and looks change nothing. A copy
keeps the value that its source had, whatever steps follow that spare the copy. -/
theorem cells_hold_last_effect (n : Nat) :
    (∀ (i : Fin n) (steps : List (Step n)),
      LastEffect i ((fresh n).history steps) (((fresh n).after steps).get i)) ∧
    (∀ (s : Store n) (steps : List (Step n)),
      s.trace steps = (s.history steps).map fun e => ((e.2.run e.1).2, (e.2.run e.1).1)) ∧
    (∀ (s : Store n) (step : Step n) (v : Value),
      (step.run s).2 = .ok (.written v) ↔ ∃ r, step.Writes s r v) ∧
    (∀ (s : Store n) (step : Step n) (e : Error), (∀ r t x, step ≠ .trySet r t x) →
      (step.run s).2 = .error e → (step.run s).1 = s) ∧
    (∀ (s : Store n) (r : Fin n) (t : HostType) (x : t.Carrier) (e : Error),
      ((Step.trySet r t x).run s).2 = .error e →
      ∀ i, ((Step.trySet r t x).run s).1.get i = if i = r then .undefined else s.get i) ∧
    (∀ (s : Store n) (op : TestOp) (a b : Fin n),
      ((Step.test op a b).run s).1 = s ∧ ((Step.views a).run s).1 = s) ∧
    ∀ (s : Store n) (r a : Fin n) (steps : List (Step n)),
      (∀ e ∈ (s.set r (s.get a)).history steps, e.2.Spares e.1 r) →
      (s.after (.write r (.copy a) :: steps)).get r = s.get a := by
  refine ⟨lastEffect_after, trace_eq_map_history, fun s step v => Step.run_eq_written_iff,
    fun s step e => Step.run_of_error, fun s r t x e => Step.get_run_trySet_of_error,
    fun s op a b => ⟨rfl, rfl⟩, ?_⟩
  intro s r a steps hspares
  have hcopy := get_after_of_spares hspares
  rw [get_set_self] at hcopy
  exact hcopy

end Store

end ScriptCell
