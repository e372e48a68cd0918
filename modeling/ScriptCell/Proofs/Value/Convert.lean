import ScriptCell.Proofs.Result
import ScriptCell.Proofs.Value.Arith

/-!
# Conversions between kinds

`Value.ViewedAs` is the value of a kind that a view makes of a value, and `Value.Refuses` says where
there is none: nothing becomes a variable, and a variable becomes nothing that would take its value.
Views are total (`Value.exists_views`), so every other conversion succeeds
(`Value.exists_viewedAs`). A value that is no variable is its own view of its own kind
(`Value.viewedAs_self`); a view has the kind that was asked for, so it is a view of itself
(`Value.ViewedAs.idem`).
-/

namespace ScriptCell.Value

variable {v w : Value} {k : Kind} {e : Error}

/-- What the view of a value that belongs to a kind gives, as a value of that kind. -/
inductive ViewedAs (v : Value) : Kind → Value → Prop
  | number {x : Single} : v.numberView = .ok x → ViewedAs v .number (.number x)
  | bool {b : Bool} : v.truthView = .ok b → ViewedAs v .bool (.bool b)
  | string {s : String} : v.textView = .ok s → ViewedAs v .string (.string s)
  | null : ViewedAs v .null .null
  | undefined : ViewedAs v .undefined .undefined

/-- There is no value of the kind for this value: it would be a variable, or the value of a variable
is not known. -/
def Refuses (v : Value) (k : Kind) : Prop :=
  k = .variableRef ∨ v.kind = .variableRef ∧ (k = .number ∨ k = .bool ∨ k = .string)

/-! ## Conversions that succeed -/

/-- **A conversion is a view.** -/
theorem convertTo_eq_ok_iff : v.convertTo k = .ok w ↔ v.ViewedAs k w := by
  constructor
  · intro h
    cases k with
    | number | bool | string =>
      obtain ⟨x, hx, rfl⟩ := exists_of_map_eq_ok h
      constructor
      exact hx
    | null | undefined =>
      obtain rfl := Except.ok.inj h
      constructor
    | variableRef => cases h
  · intro h
    cases h with
    | number h | bool h | string h =>
      rw [convertTo, h]
      rfl
    | null | undefined => rfl

/-- A view has the kind that was asked for. -/
theorem ViewedAs.kind_eq (h : v.ViewedAs k w) : w.kind = k := by
  cases h <;> rfl

/-- A view is no variable. -/
theorem ViewedAs.kind_ne (h : v.ViewedAs k w) : w.kind ≠ .variableRef := by
  cases h <;> nofun

/-- **A value that is no variable is its own view.** -/
theorem viewedAs_self (hv : v.kind ≠ .variableRef) : v.ViewedAs v.kind v := by
  cases v with
  | undefined => exact .undefined
  | number x => exact .number rfl
  | string s => exact .string rfl
  | bool b => exact .bool rfl
  | variableRef name => exact absurd rfl hv
  | null => exact .null

/-- **A view is a view of itself.** -/
theorem ViewedAs.idem (h : v.ViewedAs k w) : w.ViewedAs k w :=
  h.kind_eq ▸ viewedAs_self h.kind_ne

/-! ## Conversions that fail -/

/-- A refusal names the variable, if there is one, and the kind that was asked for. -/
theorem convertTo_of_refuses (h : v.Refuses k) :
    v.convertTo k = .error (.unresolved (v.variableName?.getD "") k) := by
  rcases h with rfl | ⟨hv, hk⟩
  · rfl
  · obtain ⟨name, rfl⟩ := exists_eq_variableRef hv
    rcases hk with rfl | rfl | rfl <;> rfl

/-- **Views are total**: a value that is no variable has all three. -/
theorem exists_views (hv : v.kind ≠ .variableRef) :
    (∃ x, v.numberView = .ok x) ∧ (∃ b, v.truthView = .ok b) ∧ ∃ s, v.textView = .ok s := by
  cases v with
  | variableRef name => exact absurd rfl hv
  | _ => exact ⟨⟨_, rfl⟩, ⟨_, rfl⟩, ⟨_, rfl⟩⟩

/-- Every conversion that is not refused succeeds. -/
theorem exists_viewedAs (h : ¬ v.Refuses k) : ∃ w, v.ViewedAs k w := by
  have hviews (hk : k = .number ∨ k = .bool ∨ k = .string) :=
    exists_views fun hv => h (.inr ⟨hv, hk⟩)
  cases k with
  | undefined => exact ⟨_, .undefined⟩
  | null => exact ⟨_, .null⟩
  | variableRef => exact absurd (.inl rfl) h
  | number =>
    obtain ⟨⟨x, hx⟩, -⟩ := hviews (.inl rfl)
    exact ⟨_, .number hx⟩
  | bool =>
    obtain ⟨-, ⟨b, hb⟩, -⟩ := hviews (.inr (.inl rfl))
    exact ⟨_, .bool hb⟩
  | string =>
    obtain ⟨-, -, s, hs⟩ := hviews (.inr (.inr rfl))
    exact ⟨_, .string hs⟩

/-- **A conversion fails** exactly if it is refused. -/
theorem convertTo_eq_error_iff :
    v.convertTo k = .error e ↔ v.Refuses k ∧ e = .unresolved (v.variableName?.getD "") k := by
  constructor
  · intro h
    by_cases hr : v.Refuses k
    · exact ⟨hr, (Except.error.inj ((convertTo_of_refuses hr).symm.trans h)).symm⟩
    · obtain ⟨w, hw⟩ := exists_viewedAs hr
      cases h.symm.trans (convertTo_eq_ok_iff.2 hw)
  · rintro ⟨hr, rfl⟩
    exact convertTo_of_refuses hr

/-! ## The laws -/

/-- Truth survives as a number. -/
theorem truthView_numberOfBool (b : Bool) : (number (numberOfBool b)).truthView = .ok b := by
  have hb : (!((numberOfBool b).isZero || (numberOfBool b).isNaN)) = b := by
    cases b <;> decide +kernel
  exact congrArg Except.ok hb

/-- The plain text of a value is its text view, if it has one. -/
theorem textView_eq (v : Value) :
    v.textView = .ok v.display ∨ ∃ name, v = .variableRef name ∧
    v.textView = .error (.unresolved name .string) := by
  cases v with
  | variableRef name => exact .inr ⟨name, rfl, rfl⟩
  | _ => exact .inl rfl

/-- **Conversion laws.** A conversion fails exactly if it asks for a variable, or for a number, a
truth value or text of one, and then with the name of the variable and the kind. Else it gives what
the view of that kind gives; the result has the kind, and converting it to the kind again changes
nothing. A value that is no variable is converted to its own kind as it is, and a truth value comes
back from a number. The plain text of a value is its text view, and for a variable its name behind a
dollar sign. -/
theorem conversion_laws (v : Value) :
    (∀ k e, v.convertTo k = .error e ↔ v.Refuses k ∧ e = .unresolved (v.variableName?.getD "") k) ∧
    (∀ k w, v.convertTo k = .ok w ↔ v.ViewedAs k w) ∧
    (∀ k w, v.convertTo k = .ok w → w.kind = k ∧ w.convertTo k = .ok w) ∧
    (v.kind ≠ .variableRef → v.convertTo v.kind = .ok v) ∧
    (v.kind = .bool → (v.convertTo .number >>= fun w => w.convertTo .bool) = .ok v) ∧
    (∀ s, v.textView = .ok s → v.display = s) ∧
    (∀ e, v.textView = .error e → ∃ name, v = .variableRef name ∧ v.display = "$" ++ name) := by
  refine ⟨fun k e => convertTo_eq_error_iff, fun k w => convertTo_eq_ok_iff, fun k w h => ?_,
    fun hv => convertTo_eq_ok_iff.2 (viewedAs_self hv), fun hbool => ?_, fun s hs => ?_,
      fun e he => ?_⟩
  · have hview := convertTo_eq_ok_iff.1 h
    exact ⟨hview.kind_eq, convertTo_eq_ok_iff.2 hview.idem⟩
  · cases v with
    | bool b =>
      have hnumber : (bool b).convertTo .number = .ok (.number (numberOfBool b)) := rfl
      rw [hnumber]
      exact convertTo_eq_ok_iff.2 (.bool (truthView_numberOfBool b))
    | _ => cases hbool
  · rcases v.textView_eq with htext | ⟨name, rfl, htext⟩
    · exact Except.ok.inj (htext.symm.trans hs)
    · cases htext.symm.trans hs
  · rcases v.textView_eq with htext | ⟨name, rfl, -⟩
    · cases htext.symm.trans he
    · exact ⟨name, rfl, rfl⟩

/-- Text that is read as a number, which stays as it is, truth by way of a number, and a
variable. -/
theorem conversion_of_text_truth_and_variable :
    (string "1e2").convertTo .number = .ok (number (.ofBits .single 0x42c80000)) ∧
    (number (.ofBits .single 0x42c80000)).convertTo .number =
      .ok (number (.ofBits .single 0x42c80000)) ∧
    ((bool true).convertTo .number >>= fun w => w.convertTo .bool) = .ok (bool true) ∧
    (variableRef "hp").convertTo .bool = .error (.unresolved "hp" .bool) ∧
    ∃ name, variableRef "hp" = variableRef name ∧ (variableRef "hp").display = "$" ++ name := by
  have hview : numberOfText "1e2" = .ofBits .single 0x42c80000 := by
    decide +kernel
  have hnumber : (string "1e2").convertTo .number = .ok (number (.ofBits .single 0x42c80000)) :=
    congrArg (fun x => Except.ok (number x)) hview
  obtain ⟨-, -, hkind, -⟩ := conversion_laws (string "1e2")
  obtain ⟨-, -, -, -, hround, -⟩ := conversion_laws (bool true)
  obtain ⟨herror, -, -, -, -, -, hdisplay⟩ := conversion_laws (variableRef "hp")
  exact ⟨hnumber, (hkind _ _ hnumber).2, hround rfl,
    (herror _ _).2 ⟨.inr ⟨rfl, .inr (.inl rfl)⟩, rfl⟩, hdisplay _ rfl⟩

end ScriptCell.Value
