import ScriptCell.Value.Test
import ScriptCell.Proofs.Binary.Same
import ScriptCell.Proofs.Value.Arith
import ScriptCell.Proofs.Value.View

/-!
# Equal values in the place of each other

Equal values are identical, or numbers that are one value (`Value.cases_of_equal`): the sign of a
zero and the pattern of a NaN are all that can differ. `Agree` compares results: the same failure,
or related values. Operations on equal values agree (`equal_values_interchangeable`); a sign of zero
is seen in texts (`Value.textView_eq_iff`) and by a zero divisor (`Value.agree_div_iff`) only.
-/

namespace ScriptCell

/-- Two results agree: they are the same failure, or their values are related. -/
inductive Agree {α β : Type} (r : α → β → Prop) : Except Error α → Except Error β → Prop
  | ok {x : α} {y : β} : r x y → Agree r (.ok x) (.ok y)
  | error (e : Error) : Agree r (.error e) (.error e)

/-- Results that agree can be continued by functions that agree on their values. -/
theorem Agree.bind {α β γ δ : Type} {r : α → β → Prop} {s : γ → δ → Prop} {m : Except Error α}
    {m' : Except Error β} {k : α → Except Error γ} {k' : β → Except Error δ} (h : Agree r m m')
    (hk : ∀ x y, m = .ok x → m' = .ok y → r x y → Agree s (k x) (k' y)) :
    Agree s (m >>= k) (m' >>= k') := by
  cases h with
  | ok hxy => exact hk _ _ rfl rfl hxy
  | error e => exact .error e

theorem Agree.eq {α : Type} {m m' : Except Error α} (h : Agree (· = ·) m m') : m = m' := by
  cases h with
  | ok hxy => rw [hxy]
  | error e => rfl

namespace Value

variable {a a' b b' : Value}

/-- The values are zeros of opposite signs. -/
def OppositeZeros (a b : Value) : Prop :=
  ∃ x y, a = .number x ∧ b = .number y ∧ x.OppositeZeros y

/-- Numbers are equal values exactly if they are one value. -/
theorem equal_number_iff {x y : Single} :
    (Value.number x).equal (.number y) = true ↔ x.Same y := by
  refine sameNumber_iff.trans ⟨?_, ?_⟩
  · rintro (rfl | ⟨hx, hy⟩ | ⟨hx, hy⟩)
    · exact .refl x
    · exact .zeros hx hy
    · exact .nans hx hy
  · intro h
    cases h with
    | refl => exact .inl rfl
    | zeros hx hy => exact .inr (.inl ⟨hx, hy⟩)
    | nans hx hy => exact .inr (.inr ⟨hx, hy⟩)

/-- **Equal values** are identical, or numbers that are one value. -/
theorem cases_of_equal (h : a.equal a' = true) :
    a = a' ∨ ∃ x y, a = .number x ∧ a' = .number y ∧ x.Same y := by
  unfold equal at h
  split at h
  · exact .inl rfl
  · exact .inl rfl
  · next x y => exact .inr ⟨x, y, rfl, rfl, equal_number_iff.1 h⟩
  · exact .inl (congrArg Value.string (of_decide_eq_true h))
  · exact .inl (congrArg Value.variableRef (of_decide_eq_true h))
  · exact .inl (congrArg Value.bool (of_decide_eq_true h))
  · cases h

theorem exists_number_of_equal {x : Single} (h : (Value.number x).equal a = true) :
    ∃ y, a = .number y := by
  cases a with
  | number y => exact ⟨y, rfl⟩
  | _ => cases h

/-! ## Views -/

theorem kind_eq_of_equal (h : a.equal a' = true) : a.kind = a'.kind := by
  rcases cases_of_equal h with rfl | ⟨x, y, rfl, rfl, -⟩ <;> rfl

theorem rawText_eq_of_equal (h : a.equal a' = true) : a.rawText = a'.rawText := by
  rcases cases_of_equal h with rfl | ⟨x, y, rfl, rfl, -⟩ <;> rfl

/-- Number views of equal values are one value. -/
theorem agree_numberView (h : a.equal a' = true) :
    Agree Binary.Same a.numberView a'.numberView := by
  rcases cases_of_equal h with rfl | ⟨x, y, rfl, rfl, hxy⟩
  · cases a with
    | variableRef name => exact .error _
    | _ => exact .ok (.refl _)
  · exact .ok hxy

theorem truthView_eq_of_equal (h : a.equal a' = true) : a.truthView = a'.truthView := by
  rcases cases_of_equal h with rfl | ⟨x, y, rfl, rfl, hxy⟩
  · rfl
  · rw [truthView, truthView, hxy.isZero_eq, hxy.isNaN_eq]

/-- The text of a number shows the sign of a zero, but not the pattern of a NaN. -/
theorem text_eq_iff_of_same {x y : Single} (h : x.Same y) :
    displayLayout.text x = displayLayout.text y ↔ ¬ x.OppositeZeros y := by
  constructor
  · rintro htext ⟨hx, hy, hneg⟩
    have hread := ofText?_display_self (Binary.isNaN_of_isZero hx)
    rw [htext, ofText?_display_self (Binary.isNaN_of_isZero hy)] at hread
    exact hneg (congrArg Binary.neg (Option.some.inj hread).symm)
  · intro hzeros
    cases hx : x.isNaN with
    | false => rw [h.eq_of_isNaN hx hzeros]
    | true => rw [Layout.text, Layout.text, if_pos hx, if_pos (h.isNaN_eq ▸ hx)]

/-- A view that shows of a number its text and nothing else differs between equal values only if
they are zeros of opposite signs. -/
theorem view_eq_iff {α : Type} (view : Value → α) (hview : ∀ x y : Single,
    view (.number x) = view (.number y) ↔ displayLayout.text x = displayLayout.text y)
    (h : a.equal a' = true) : view a = view a' ↔ ¬ a.OppositeZeros a' := by
  rcases cases_of_equal h with rfl | ⟨x, y, rfl, rfl, hxy⟩
  · refine iff_of_true rfl ?_
    rintro ⟨x, y, hx, hy, -, -, hneg⟩
    obtain rfl := Value.number.inj (hx.symm.trans hy)
    exact hneg rfl
  · rw [hview, text_eq_iff_of_same hxy, not_iff_not]
    constructor
    · intro hzeros
      exact ⟨x, y, rfl, rfl, hzeros⟩
    · rintro ⟨x', y', hx, hy, hzeros⟩
      obtain rfl := Value.number.inj hx
      obtain rfl := Value.number.inj hy
      exact hzeros

theorem textView_eq_iff (h : a.equal a' = true) : a.textView = a'.textView ↔ ¬ a.OppositeZeros a' :=
  view_eq_iff textView (fun _ _ => ⟨Except.ok.inj, congrArg Except.ok⟩) h

theorem display_eq_iff (h : a.equal a' = true) : a.display = a'.display ↔ ¬ a.OppositeZeros a' :=
  view_eq_iff display (fun _ _ => Iff.rfl) h

theorem convertTo_string_eq_iff (h : a.equal a' = true) :
    a.convertTo .string = a'.convertTo .string ↔ ¬ a.OppositeZeros a' :=
  view_eq_iff (fun v => v.convertTo .string) (fun _ _ =>
    ⟨fun ht => Value.string.inj (Except.ok.inj ht), congrArg fun t => Except.ok (Value.string t)⟩) h

/-! ## Operations -/

theorem negate_equal_of_equal (h : a.equal a' = true) : a.negate.equal a'.negate = true := by
  rcases cases_of_equal h with rfl | ⟨x, y, rfl, rfl, hxy⟩
  · exact equal_self _
  · exact equal_number_iff.2 hxy.negate

theorem compare?_eq_of_equal (ha : a.equal a' = true) (hb : b.equal b' = true) :
    a.compare? b = a'.compare? b' := by
  unfold compare? hasPayload
  rw [kind_eq_of_equal ha, kind_eq_of_equal hb]
  split
  · rfl
  · split
    · rfl
    · refine ((agree_numberView ha).bind fun x x' _ _ hx => ?_).eq
      exact (agree_numberView hb).bind fun y y' _ _ hy => .ok (hx.compare?_eq hy)

/-- Views of equal values are zeros of opposite signs only if the values are. -/
theorem oppositeZeros_of_numberView (h : a.equal a' = true) {x y : Single}
    (hx : a.numberView = .ok x) (hy : a'.numberView = .ok y) (hzeros : x.OppositeZeros y) :
    a.OppositeZeros a' := by
  rcases cases_of_equal h with rfl | ⟨x', y', rfl, rfl, -⟩
  · obtain rfl := Except.ok.inj (hx.symm.trans hy)
    exact absurd rfl hzeros.2.2
  · obtain rfl := Except.ok.inj hx
    obtain rfl := Except.ok.inj hy
    exact ⟨x', y', rfl, rfl, hzeros⟩

/-- A value that can be divided and is no zero is a number. -/
theorem eq_number_of_numberView (hrule : ArithOp.div.rule a.kind b.kind = .compute) {x : Single}
    (hx : a.numberView = .ok x) (hzero : x.isZero = false) : a = .number x := by
  have hreject : ∀ k : Kind, ArithOp.productRule .string k = .reject ∧
      ArithOp.productRule .bool k = .reject := by
    intro k
    cases k <;> decide
  cases a with
  | number x' => rw [Except.ok.inj hx]
  | undefined | null =>
    obtain rfl := Except.ok.inj hx
    cases hzero
  | string s => exact absurd (hrule.symm.trans (hreject b.kind).1) (by decide)
  | bool c => exact absurd (hrule.symm.trans (hreject b.kind).2) (by decide)
  | variableRef name => cases hx

/-- Zeros of opposite signs divide a number that is neither zero nor a NaN. -/
def SignShown (a b b' : Value) : Prop :=
  b.OppositeZeros b' ∧ ∃ x, a = .number x ∧ x.isZero = false ∧ x.isNaN = false

end Value

namespace ArithOp

variable {a a' b b' : Value}

/-- **Operators on equal values agree**, unless a quotient shows the sign of a zero. -/
theorem agree_apply {op : ArithOp} (ha : a.equal a' = true) (hb : b.equal b' = true)
    (hdiv : op = .div → ¬ a.SignShown b b') :
    Agree (fun v w => v.equal w = true) (op.apply a b) (op.apply a' b') := by
  have hrule : op.rule a'.kind b'.kind = op.rule a.kind b.kind := by
    rw [Value.kind_eq_of_equal ha, Value.kind_eq_of_equal hb]
  cases hr : op.rule a.kind b.kind with
  | join =>
    rw [apply_eq_join hr, apply_eq_join (hrule.trans hr), Value.rawText_eq_of_equal ha,
      Value.rawText_eq_of_equal hb]
    exact .ok (Value.equal_self _)
  | unknown =>
    rw [apply_eq_unknown hr, apply_eq_unknown (hrule.trans hr)]
    exact .ok (Value.equal_self _)
  | reject =>
    rw [apply_eq_reject hr, apply_eq_reject (hrule.trans hr), Value.kind_eq_of_equal ha,
      Value.kind_eq_of_equal hb]
    exact .error _
  | compute =>
    simp only [apply, hr, hrule]
    refine (Value.agree_numberView ha).bind fun x x' hax _ hx => ?_
    refine (Value.agree_numberView hb).bind fun y y' hby hby' hy => ?_
    refine .ok (Value.equal_number_iff.2 ?_)
    cases op with
    | add => exact hx.add hy
    | sub => exact hx.sub hy
    | mul => exact hx.mul hy
    | rem => exact hx.rem hy
    | div =>
      refine (Binary.same_div_iff hx hy).2 ?_
      rintro ⟨hzeros, hxz, hxn⟩
      exact hdiv rfl ⟨Value.oppositeZeros_of_numberView hb hby hby' hzeros, x,
        Value.eq_number_of_numberView hr hax hxz, hxz, hxn⟩

/-- **Quotients of equal values agree** exactly if they do not show the sign of a zero. -/
theorem agree_div_iff (ha : a.equal a' = true) (hb : b.equal b' = true) :
    Agree (fun v w => v.equal w = true) (div.apply a b) (div.apply a' b') ↔ ¬ a.SignShown b b' := by
  refine ⟨?_, fun h => agree_apply ha hb fun _ => h⟩
  rintro h ⟨⟨y, y', rfl, rfl, hzeros⟩, x, rfl, hxz, hxn⟩
  obtain ⟨x', rfl⟩ := Value.exists_number_of_equal ha
  have hquotient (x y : Single) : div.apply (.number x) (.number y) = .ok (.number (x.div y)) := rfl
  rw [hquotient, hquotient] at h
  cases h with
  | ok hsame =>
    rw [Value.equal_number_iff] at ha hb hsame
    exact (Binary.same_div_iff ha hb).1 hsame ⟨hzeros, hxz, hxn⟩

end ArithOp

/-- **Equal values are interchangeable** except where the sign of a zero is visible. On equal values
every operator gives the same failure or equal values, but for a quotient by a zero; a quotient does
unless zeros of opposite signs divide a number that is neither zero nor a NaN. Their negations are
equal, they are ordered alike and have the same truth, and their number views are one value. Their
texts are the same unless they are zeros of opposite signs, and differ then. -/
theorem equal_values_interchangeable {a a' b b' : Value} (ha : a.equal a' = true)
    (hb : b.equal b' = true) :
    (∀ op : ArithOp, (op = .div → ∀ y, b = .number y → y.isZero = false) →
      Agree (fun v w => v.equal w = true) (op.apply a b) (op.apply a' b')) ∧
    (Agree (fun v w => v.equal w = true) (ArithOp.div.apply a b) (ArithOp.div.apply a' b') ↔
      ¬ a.SignShown b b') ∧
    a.negate.equal a'.negate = true ∧
    a.compare? b = a'.compare? b' ∧
    (∀ op : OrderOp, op.apply a b = op.apply a' b') ∧
    a.truthView = a'.truthView ∧
    Agree Binary.Same a.numberView a'.numberView ∧
    (a.textView = a'.textView ↔ ¬ a.OppositeZeros a') ∧
    (a.display = a'.display ↔ ¬ a.OppositeZeros a') ∧
    (a.convertTo .string = a'.convertTo .string ↔ ¬ a.OppositeZeros a') := by
  have hcompare := Value.compare?_eq_of_equal ha hb
  refine ⟨fun op hop => ArithOp.agree_apply ha hb ?_, ArithOp.agree_div_iff ha hb,
    Value.negate_equal_of_equal ha, hcompare, fun op => ?_, Value.truthView_eq_of_equal ha,
    Value.agree_numberView ha, Value.textView_eq_iff ha, Value.display_eq_iff ha,
    Value.convertTo_string_eq_iff ha⟩
  · rintro hdiv ⟨⟨y, y', hy, -, hzeros⟩, -⟩
    exact absurd (hzeros.1.symm.trans (hop hdiv y hy)) (by decide)
  · rw [OrderOp.apply, hcompare, OrderOp.apply]

/-- Two NaNs are multiplied by the zeros to equal values, the zeros have different texts, and they
divide one to different values. -/
theorem zeros_and_nans_interchanged :
    (Value.number (.ofBits .single 0)).equal (.number (.ofBits .single 0x80000000)) = true ∧
    (Value.number (.ofBits .single 0x7fc00001)).equal (.number (.ofBits .single 0xffffffff)) =
      true ∧
    Agree (fun v w => v.equal w = true)
      (ArithOp.mul.apply (.number (.ofBits .single 0)) (.number (.ofBits .single 0x7fc00001)))
      (ArithOp.mul.apply (.number (.ofBits .single 0x80000000))
        (.number (.ofBits .single 0xffffffff))) ∧
    (Value.number (.ofBits .single 0)).display ≠
      (Value.number (.ofBits .single 0x80000000)).display ∧
    ¬ Agree (fun v w => v.equal w = true)
      (ArithOp.div.apply (.number (.ofBits .single 0x3f800000)) (.number (.ofBits .single 0)))
      (ArithOp.div.apply (.number (.ofBits .single 0x3f800000))
        (.number (.ofBits .single 0x80000000))) := by
  have hz : (Value.number (.ofBits .single 0)).equal (.number (.ofBits .single 0x80000000)) =
      true := by
    decide +kernel
  have hn : (Value.number (.ofBits .single 0x7fc00001)).equal
      (.number (.ofBits .single 0xffffffff)) = true := by
    decide +kernel
  have ho : (Value.number (.ofBits .single 0x3f800000)).equal
      (.number (.ofBits .single 0x3f800000)) = true :=
    Value.equal_self _
  have hzeros : (Value.number (.ofBits .single 0)).OppositeZeros
      (.number (.ofBits .single 0x80000000)) :=
    ⟨_, _, rfl, rfl, by decide +kernel, by decide +kernel, by decide +kernel⟩
  obtain ⟨hops, -, -, -, -, -, -, -, hdisplay, -⟩ := equal_values_interchangeable hz hn
  obtain ⟨-, hdiv, -⟩ := equal_values_interchangeable ho hz
  refine ⟨hz, hn, hops .mul nofun, fun h => hdisplay.1 h hzeros, fun h => hdiv.1 h ?_⟩
  exact ⟨hzeros, _, rfl, by decide +kernel, by decide +kernel⟩

end ScriptCell
