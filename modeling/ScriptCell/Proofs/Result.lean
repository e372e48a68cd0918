/-!
# Results that can fail

How a result that was mapped or continued comes about.
-/

namespace ScriptCell

variable {ε α β γ : Type}

/-- A result that is mapped has what it was mapped from. -/
theorem exists_of_map_eq_ok {f : α → β} {r : Except ε α} {y : β} (h : r.map f = .ok y) :
    ∃ x, r = .ok x ∧ f x = y := by
  cases r with
  | error e => cases h
  | ok x => exact ⟨x, rfl, Except.ok.inj h⟩

/-- A success of a continued computation is one of both parts. -/
theorem exists_of_bind_eq_ok {m : Except ε α} {k : α → Except ε β} {y : β} (h : m >>= k = .ok y) :
    ∃ x, m = .ok x ∧ k x = .ok y := by
  cases m with
  | error e => cases h
  | ok x => exact ⟨x, rfl, h⟩

/-- A result that is mapped twice is mapped once. -/
theorem map_map_result (f : α → β) (g : β → γ) (r : Except ε α) :
    (r.map f).map g = r.map (g ∘ f) := by
  cases r <;> rfl

end ScriptCell
