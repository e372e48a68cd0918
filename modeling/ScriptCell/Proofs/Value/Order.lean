import ScriptCell.Proofs.Value.Arith
import ScriptCell.Value.Order

/-!
# When values are not ordered

`Value.Unordered` lists the causes for which a comparison fails, each with its failure: the kinds
differ and one of them has a payload, or both sides are variables, of which the left one is
reported. A comparison fails exactly for these causes (`Value.compare?_eq_error_iff`), and with it
every ordering operator (`OrderOp.apply_eq_error_iff`).
-/

namespace ScriptCell

/-- The failures of a comparison, each with its cause. -/
inductive Value.Unordered : Value → Value → Error → Prop
  | kinds {a b : Value} : a.kind ≠ b.kind → a.hasPayload = true ∨ b.hasPayload = true →
      Unordered a b (.incomparable a.kind b.kind)
  | unresolved {name name' : String} :
      Unordered (.variableRef name) (.variableRef name') (.unresolved name .number)

namespace Value

variable {a b : Value} {e : Error}

theorem compare?_of_payloadless (ha : a.hasPayload = false) (hb : b.hasPayload = false) :
    a.compare? b = .ok (some .eq) := by
  rw [compare?, ha, hb]
  rfl

theorem not_both_payloadless (hp : a.hasPayload = true ∨ b.hasPayload = true) :
    ¬ (!a.hasPayload && !b.hasPayload) = true := by
  rcases hp with hp | hp <;> simp [hp]

theorem compare?_of_kind_ne (hp : a.hasPayload = true ∨ b.hasPayload = true)
    (hk : a.kind ≠ b.kind) :
    a.compare? b = .error (.incomparable a.kind b.kind) := by
  rw [compare?, if_neg (not_both_payloadless hp), if_pos hk]

/-- Values of one kind that both have a number view are ordered by their views. -/
theorem compare?_of_numberView {x y : Single} (hp : a.hasPayload = true ∨ b.hasPayload = true)
    (hk : a.kind = b.kind) (hx : a.numberView = .ok x) (hy : b.numberView = .ok y) :
    a.compare? b = .ok (x.compare? y) := by
  rw [compare?, if_neg (not_both_payloadless hp), if_neg (fun h => h hk), hx, hy]
  rfl

/-- **A comparison fails exactly for its causes.** -/
theorem compare?_eq_error_iff : a.compare? b = .error e ↔ a.Unordered b e := by
  constructor
  · intro h
    by_cases hp : a.hasPayload = true ∨ b.hasPayload = true
    · by_cases hk : a.kind = b.kind
      · rcases a.exists_numberView with ⟨x, hx⟩ | ⟨name, rfl⟩
        · rcases b.exists_numberView with ⟨y, hy⟩ | ⟨name, rfl⟩
          · rw [compare?_of_numberView hp hk hx hy] at h
            cases h
          · cases a <;> cases hk
            cases hx
        · cases b <;> cases hk
          obtain rfl := Except.error.inj h
          exact .unresolved
      · rw [compare?_of_kind_ne hp hk] at h
        obtain rfl := Except.error.inj h
        exact .kinds hk hp
    · rw [not_or, Bool.not_eq_true, Bool.not_eq_true] at hp
      rw [compare?_of_payloadless hp.1 hp.2] at h
      cases h
  · rintro (⟨hk, hp⟩ | _)
    · exact compare?_of_kind_ne hp hk
    · rfl

end Value

/-- **An ordering operator fails exactly for the causes of its comparison.** -/
theorem OrderOp.apply_eq_error_iff {op : OrderOp} {a b : Value} {e : Error} :
    op.apply a b = .error e ↔ a.Unordered b e := by
  rw [← Value.compare?_eq_error_iff, apply]
  cases a.compare? b <;> simp [Except.map]

end ScriptCell
