import ScriptCell.Proofs.Binary.Same
import ScriptCell.Proofs.Result
import ScriptCell.Proofs.Value.Arith

/-!
# Chains of operators

`Value.chain` applies operators one after another, each to the result so far and an operand of its
own. A result in a chain is text, a NaN or another number, and each sort has its law. To text
nothing but `+` can be applied, and that joins texts to it (`Value.chain_string_eq_ok_iff`); a NaN
stays one until text is joined to it (`Value.isNaN_chain_iff`). A sum takes up the texts among its
terms whatever stands between them (`Value.rawText_sum`), so a sum with a text in it is these texts
joined.
-/

namespace ScriptCell

namespace Value

/-- Applies operators one after another, each to the result so far and an operand of its own. -/
def chain (a : Value) : List (ArithOp × Value) → Except Error Value
  | [] => .ok a
  | (op, b) :: steps => op.apply a b >>= fun c => c.chain steps

/-- Adds values to a value one after another. -/
def sum (a : Value) (vs : List Value) : Except Error Value := a.chain (vs.map fun b => (.add, b))

/-- The texts among some values, in order. -/
def texts (vs : List Value) : List String :=
  vs.filterMap fun
    | .string s => some s
    | _ => none

/-- The step joins text to the result so far. -/
def JoinsText (step : ArithOp × Value) : Prop := step.1 = .add ∧ step.2.kind = .string

variable {op : ArithOp} {a b c v w : Value} {s : String} {vs : List Value}
  {steps before after : List (ArithOp × Value)}

/-! ## One step -/

/-- **A step from text** is `+`, and it joins the text of its operand. -/
theorem apply_string_eq_ok_iff :
    op.apply (.string s) b = .ok v ↔ op = .add ∧ v = .string (s ++ b.rawText) := by
  constructor
  · intro h
    cases ArithOp.apply_eq_iff.1 h with
    | join hop _ => exact ⟨hop, rfl⟩
    | unknown _ ht _ => exact absurd (.inl rfl) ht
    | sum _ ht _ _ _ _ => exact absurd (.inl rfl) ht
    | combine hc _ _ _ => simp [Combinable] at hc
  · rintro ⟨rfl, rfl⟩
    exact ArithOp.apply_of_yields (.join rfl (.inl rfl))

/-- **A step from a NaN** gives a NaN, unless it joins text. -/
theorem isNaN_apply_iff (ha : a.isNaN = true) (h : op.apply a b = .ok v) :
    v.isNaN = true ↔ ¬ JoinsText (op, b) := by
  obtain ⟨x, rfl, hx⟩ : ∃ x, a = .number x ∧ x.isNaN = true := by
    cases a with
    | number x => exact ⟨x, rfl, ha⟩
    | _ => cases ha
  cases ArithOp.apply_eq_iff.1 h with
  | join hop ht =>
    refine iff_of_false nofun fun hj => hj ⟨hop, ?_⟩
    rcases ht with ht | ht
    · cases ht
    · exact ht
  | unknown _ ht _ => exact iff_of_true (Binary.isNaN_nan _) fun hj => ht (.inr hj.2)
  | sum _ ht _ _ hxa _ =>
    obtain rfl := Except.ok.inj hxa
    exact iff_of_true (Binary.isNaN_add (.inl hx)) fun hj => ht (.inr hj.2)
  | combine hc hxa _ hz =>
    obtain rfl := Except.ok.inj hxa
    refine iff_of_true ?_ fun hj => ?_
    · rcases hz with ⟨_, rfl⟩ | ⟨_, rfl⟩ | ⟨_, rfl⟩ | ⟨_, rfl⟩
      · exact Binary.isNaN_add (.inl hx)
      · exact Binary.isNaN_mul (.inl hx)
      · exact Binary.isNaN_div (.inl hx)
      · exact Binary.isNaN_rem (.inl hx)
    · simp [Combinable, show b.kind = .string from hj.2] at hc

/-- **A sum of two** is text exactly if one of them is, and takes up the texts of both. -/
theorem sum_of_two (h : ArithOp.add.apply a b = .ok c) :
    (c.kind = .string ↔ a.TextSide b) ∧ c.rawText = a.rawText ++ b.rawText := by
  have hraw : ∀ {v : Value}, v.kind ≠ .string → v.rawText = "" := by
    intro v hv
    cases v with
    | string s => exact absurd rfl hv
    | _ => rfl
  have hnumber {x : Single} (ht : ¬ a.TextSide b) :
      ((Value.number x).kind = .string ↔ a.TextSide b) ∧
        (Value.number x).rawText = a.rawText ++ b.rawText := by
    refine ⟨iff_of_false nofun ht, ?_⟩
    rw [hraw fun ha => ht (.inl ha), hraw fun hb => ht (.inr hb), String.append_empty]
    rfl
  cases ArithOp.apply_eq_iff.1 h with
  | join _ ht => exact ⟨iff_of_true rfl ht, rfl⟩
  | unknown _ ht _ => exact hnumber ht
  | sum _ ht _ _ _ _ => exact hnumber ht
  | combine hc _ _ hz => simp at hz

/-! ## Whole chains -/

/-- **A chain can be cut anywhere**: it goes on from the result that it has there. -/
theorem chain_append_eq_ok_iff :
    a.chain (before ++ after) = .ok v ↔ ∃ w, a.chain before = .ok w ∧ w.chain after = .ok v := by
  induction before generalizing a with
  | nil =>
    constructor
    · exact fun h => ⟨a, rfl, h⟩
    · rintro ⟨w, hw, h⟩
      rwa [Except.ok.inj hw]
  | cons step before ih =>
    obtain ⟨op, b⟩ := step
    rw [List.cons_append, chain, chain]
    cases op.apply a b with
    | error e =>
      refine iff_of_false nofun ?_
      rintro ⟨w, hw, -⟩
      cases hw
    | ok c => exact ih

/-- From the first step on the result is a number or text. -/
theorem kind_chain (hne : steps ≠ []) (h : a.chain steps = .ok v) :
    v.kind = .number ∨ v.kind = .string := by
  induction steps generalizing a with
  | nil => exact absurd rfl hne
  | cons step steps ih =>
    obtain ⟨c, hc, h⟩ := exists_of_bind_eq_ok h
    cases steps with
    | nil =>
      obtain rfl := Except.ok.inj h
      exact ArithOp.apply_ok_kind hc
    | cons step' steps => exact ih (List.cons_ne_nil _ _) h

/-- **A chain from text** joins texts to it and can do nothing else. -/
theorem chain_string_eq_ok_iff :
    (Value.string s).chain steps = .ok v ↔
      (∀ p ∈ steps, p.1 = .add) ∧
        v = .string (s ++ String.join (steps.map fun p => p.2.rawText)) := by
  induction steps generalizing s with
  | nil => simp [chain, eq_comm]
  | cons step steps ih =>
    obtain ⟨op, b⟩ := step
    rw [List.forall_mem_cons, List.map_cons, String.join_cons, ← String.append_assoc]
    constructor
    · intro h
      obtain ⟨c, hc, h⟩ := exists_of_bind_eq_ok h
      obtain ⟨hop, rfl⟩ := apply_string_eq_ok_iff.1 hc
      obtain ⟨hops, hv⟩ := ih.1 h
      exact ⟨⟨hop, hops⟩, hv⟩
    · rintro ⟨⟨hop, hops⟩, hv⟩
      rw [chain, apply_string_eq_ok_iff.2 ⟨hop, rfl⟩]
      exact ih.2 ⟨hops, hv⟩

/-- **A chain from a NaN** has a NaN until text is joined. -/
theorem isNaN_chain_iff (ha : a.isNaN = true) (h : a.chain steps = .ok v) :
    v.isNaN = true ↔ ∀ p ∈ steps, ¬ JoinsText p := by
  induction steps generalizing a with
  | nil =>
    obtain rfl := Except.ok.inj h
    exact iff_of_true ha (List.forall_mem_nil _)
  | cons step steps ih =>
    obtain ⟨c, hc, h⟩ := exists_of_bind_eq_ok h
    rw [List.forall_mem_cons]
    by_cases hj : JoinsText step
    · -- behind text there is only text
      refine iff_of_false ?_ fun hall => hall.1 hj
      obtain ⟨hop, hb⟩ := hj
      have hc : ArithOp.add.apply a step.2 = .ok c := hop ▸ hc
      have hkind := (sum_of_two hc).1.2 (.inr hb)
      cases c with
      | string s =>
        obtain ⟨-, rfl⟩ := chain_string_eq_ok_iff.1 h
        exact nofun
      | _ => cases hkind
    · rw [ih ((isNaN_apply_iff ha hc).2 hj) h]
      exact (and_iff_right hj).symm

/-! ## Sums -/

/-- The texts among values are the texts that they carry. -/
theorem join_texts (vs : List Value) : String.join (texts vs) = String.join (vs.map rawText) := by
  induction vs with
  | nil => rfl
  | cons v vs ih =>
    rw [List.map_cons, String.join_cons, ← ih]
    cases v with
    | string s => exact String.join_cons
    | _ => exact String.empty_append.symm

/-- **A sum is text** exactly if one of its terms is, and it takes up the texts of its terms. -/
theorem rawText_sum (h : a.sum vs = .ok v) :
    (v.kind = .string ↔ ∃ b ∈ a :: vs, b.kind = .string) ∧
      v.rawText = String.join ((a :: vs).map rawText) := by
  induction vs generalizing a with
  | nil =>
    obtain rfl := Except.ok.inj h
    simp
  | cons b vs ih =>
    obtain ⟨c, hc, h⟩ := exists_of_bind_eq_ok h
    obtain ⟨hkind, htext⟩ := ih h
    obtain ⟨hc, hct⟩ := sum_of_two hc
    simp only [List.mem_cons, exists_eq_or_imp, List.map_cons, String.join_cons] at hkind htext ⊢
    refine ⟨?_, ?_⟩
    · rw [hkind, hc, TextSide, or_assoc]
    · rw [htext, hct, String.append_assoc]

/-- **Chains of operators.** A chain that succeeds has a result at each of its steps, from the first
step on a number or text. Once the result is text, the chain goes on exactly as far as all operators
are `+`, and they join the texts of their operands to it in order. Once it is a NaN, it is one at
every later step until a step joins text, and no longer. So a sum of values one of which is text is,
if it succeeds, made of the texts among them in order, and a sum that begins with text always
succeeds. -/
theorem chain_by_results (a : Value) :
    (∀ before after v, a.chain (before ++ after) = .ok v ↔
      ∃ w, a.chain before = .ok w ∧ w.chain after = .ok v) ∧
    (∀ steps v, steps ≠ [] → a.chain steps = .ok v → v.kind = .number ∨ v.kind = .string) ∧
    (∀ before s after v, a.chain before = .ok (.string s) →
      (a.chain (before ++ after) = .ok v ↔ (∀ p ∈ after, p.1 = .add) ∧
        v = .string (s ++ String.join (after.map fun p => p.2.rawText)))) ∧
    (∀ before w after v, a.chain before = .ok w → w.isNaN = true →
      a.chain (before ++ after) = .ok v →
      (v.isNaN = true ↔ ∀ p ∈ after, ¬ JoinsText p)) ∧
    (∀ vs v, a.sum vs = .ok v → (∃ s, .string s ∈ a :: vs) →
      v = .string (String.join (texts (a :: vs)))) ∧
    ∀ s vs, a = .string s → a.sum vs = .ok (.string (String.join (texts (a :: vs)))) := by
  refine ⟨fun before after v => chain_append_eq_ok_iff, fun steps v => kind_chain, ?_, ?_, ?_, ?_⟩
  · intro before s after v hs
    rw [chain_append_eq_ok_iff, hs, ← chain_string_eq_ok_iff]
    simp
  · intro before w after v hw hnan h
    obtain ⟨w', hw', h⟩ := chain_append_eq_ok_iff.1 h
    obtain rfl := Except.ok.inj (hw.symm.trans hw')
    exact isNaN_chain_iff hnan h
  · rintro vs v h ⟨s, hs⟩
    obtain ⟨hkind, htext⟩ := rawText_sum h
    rw [join_texts, ← htext]
    cases v with
    | string t => rfl
    | _ => cases hkind.2 ⟨_, hs, rfl⟩
  · rintro s vs rfl
    rw [join_texts, sum, chain_string_eq_ok_iff]
    refine ⟨fun p hp => ?_, ?_⟩
    · obtain ⟨b, -, rfl⟩ := List.mem_map.1 hp
      rfl
    · rw [List.map_cons, String.join_cons, List.map_map]
      rfl

end Value

end ScriptCell
