import ScriptCell.Proofs.Value.Interchange
import ScriptCell.Proofs.Value.Order

/-!
# The partial order of values

A comparison that succeeds compares the number views, also of two values without payload, whose
views it does not look at (`Value.compare?_eq_ok_iff`). So an ordering operator says of two values
what it says of the ranks of two numbers that are no NaNs (`OrderOp.apply_eq_true_iff`), and the
laws of the order are those of the integers (`Value.ordering_laws`).
-/

namespace ScriptCell

/-! ## Operators -/

namespace OrderOp

/-- The operator that says the same when its operands are exchanged. -/
def converse : OrderOp → OrderOp
  | .lt => .gt
  | .gt => .lt
  | .le => .ge
  | .ge => .le

/-- What an operator says of two integers. -/
def Relates : OrderOp → Int → Int → Prop
  | .lt, m, n => m < n
  | .gt, m, n => n < m
  | .le, m, n => m ≤ n
  | .ge, m, n => n ≤ m

/-- An operator holds of the order of two integers exactly if it says so of them. -/
theorem holds_compare_iff {op : OrderOp} {m n : Int} :
    op.holds (some (compare m n)) = true ↔ op.Relates m n := by
  rcases Int.lt_trichotomy m n with h | h | h
  · rw [Int.compare_eq_lt.2 h]
    cases op <;> simp [holds, Relates] <;> omega
  · rw [Int.compare_eq_eq.2 h]
    cases op <;> simp [holds, Relates] <;> omega
  · rw [Int.compare_eq_gt.2 h]
    cases op <;> simp [holds, Relates] <;> omega

@[simp] theorem converse_converse (op : OrderOp) : op.converse.converse = op := by cases op <;> rfl

theorem holds_converse (op : OrderOp) (o : Option Ordering) :
    op.converse.holds (o.map Ordering.swap) = op.holds o := by
  cases op <;> rcases o with _ | _ | _ | _ <;> rfl

/-- No operator holds of what is not ordered, and one of them holds of what is. -/
theorem forall_not_holds_iff {o : Option Ordering} :
    (∀ op : OrderOp, op.holds o = false) ↔ o = none := by
  constructor
  · intro h
    cases o with
    | none => rfl
    | some o =>
      cases o with
      | lt => cases h .lt
      | eq => cases h .le
      | gt => cases h .gt
  · rintro rfl op
    cases op <;> rfl

end OrderOp

/-! ## Comparisons that succeed -/

namespace Value

variable {a b c : Value} {o : Option Ordering}

/-- Two values have a place in the order: neither has a payload, or they are of one kind and no
variables. -/
def Comparable (a b : Value) : Prop :=
  (a.hasPayload = false ∧ b.hasPayload = false) ∨ (a.kind = b.kind ∧ a.kind ≠ .variableRef)

theorem hasPayload_eq_of_kind_eq (h : a.kind = b.kind) : a.hasPayload = b.hasPayload := by
  rw [hasPayload, hasPayload, h]

theorem Comparable.symm (h : a.Comparable b) : b.Comparable a := by
  rcases h with ⟨ha, hb⟩ | ⟨hkind, hvar⟩
  · exact .inl ⟨hb, ha⟩
  · exact .inr ⟨hkind.symm, hkind ▸ hvar⟩

theorem Comparable.trans (hab : a.Comparable b) (hbc : b.Comparable c) : a.Comparable c := by
  rcases hab with ⟨ha, hb⟩ | ⟨hkind, hvar⟩
  · rcases hbc with ⟨-, hc⟩ | ⟨hkind, -⟩
    · exact .inl ⟨ha, hc⟩
    · exact .inl ⟨ha, hasPayload_eq_of_kind_eq hkind ▸ hb⟩
  · rcases hbc with ⟨hb, hc⟩ | ⟨hkind', -⟩
    · exact .inl ⟨hasPayload_eq_of_kind_eq hkind ▸ hb, hc⟩
    · exact .inr ⟨hkind.trans hkind', hvar⟩

/-- A value without payload is read as zero. -/
theorem numberView_of_payloadless (h : a.hasPayload = false) :
    a.numberView = .ok (.zero .single false) := by
  cases a with
  | undefined | null => rfl
  | _ => cases h

theorem numberView_of_kind_ne (h : a.kind ≠ .variableRef) : ∃ x, a.numberView = .ok x := by
  rcases a.exists_numberView with hx | ⟨name, rfl⟩
  · exact hx
  · exact absurd rfl h

/-- Comparable values have number views, and these are what is compared. -/
theorem Comparable.compare?_eq (h : a.Comparable b) :
    ∃ x y, a.numberView = .ok x ∧ b.numberView = .ok y ∧ a.compare? b = .ok (x.compare? y) := by
  by_cases hp : a.hasPayload = true ∨ b.hasPayload = true
  · rcases h with ⟨ha, hb⟩ | ⟨hkind, hvar⟩
    · simp [ha, hb] at hp
    · obtain ⟨x, hx⟩ := numberView_of_kind_ne hvar
      obtain ⟨y, hy⟩ := numberView_of_kind_ne (hkind ▸ hvar)
      exact ⟨x, y, hx, hy, compare?_of_numberView hp hkind hx hy⟩
  · rw [not_or, Bool.not_eq_true, Bool.not_eq_true] at hp
    exact ⟨_, _, numberView_of_payloadless hp.1, numberView_of_payloadless hp.2,
      compare?_of_payloadless hp.1 hp.2⟩

/-- Values that are not comparable have a cause for it. -/
theorem exists_unordered (h : ¬ a.Comparable b) : ∃ e, a.Unordered b e := by
  rw [Comparable, not_or, not_and_or, not_and, not_not, Bool.not_eq_false, Bool.not_eq_false] at h
  by_cases hkind : a.kind = b.kind
  · have hvar := h.2 hkind
    obtain ⟨name, rfl⟩ := exists_eq_variableRef hvar
    obtain ⟨name', rfl⟩ := exists_eq_variableRef (hkind ▸ hvar)
    exact ⟨_, .unresolved⟩
  · exact ⟨_, .kinds hkind h.1⟩

/-- **A comparison succeeds** exactly for comparable values, and is that of their number views. -/
theorem compare?_eq_ok_iff :
    a.compare? b = .ok o ↔
      a.Comparable b ∧ ∃ x y, a.numberView = .ok x ∧ b.numberView = .ok y ∧ x.compare? y = o := by
  constructor
  · intro h
    have hab : a.Comparable b := by
      by_contra hab
      obtain ⟨e, he⟩ := exists_unordered hab
      cases h.symm.trans (compare?_eq_error_iff.2 he)
    obtain ⟨x, y, hx, hy, hcompare⟩ := hab.compare?_eq
    exact ⟨hab, x, y, hx, hy, Except.ok.inj (hcompare.symm.trans h)⟩
  · rintro ⟨hab, x, y, hx, hy, rfl⟩
    obtain ⟨x', y', hx', hy', hcompare⟩ := hab.compare?_eq
    obtain rfl := Except.ok.inj (hx.symm.trans hx')
    obtain rfl := Except.ok.inj (hy.symm.trans hy')
    exact hcompare

/-- The number view of a value is a NaN. -/
def HasNaNView (v : Value) : Prop := ∃ x, v.numberView = .ok x ∧ x.isNaN = true

/-- **A NaN is ordered with nothing**: comparable values are not ordered exactly if one of their
views is a NaN. A value without payload is no NaN, so both sides are of one kind. -/
theorem compare?_eq_none_iff :
    a.compare? b = .ok none ↔ a.kind = b.kind ∧ (a.HasNaNView ∨ b.HasNaNView) := by
  have hzero {v : Value} (hv : v.hasPayload = false) : ¬ v.HasNaNView := by
    rintro ⟨x, hx, hnan⟩
    rw [numberView_of_payloadless hv] at hx
    obtain rfl := Except.ok.inj hx
    cases hnan
  rw [compare?_eq_ok_iff]
  constructor
  · rintro ⟨hab, x, y, hx, hy, hcompare⟩
    have hnan : a.HasNaNView ∨ b.HasNaNView :=
      (Binary.compare?_eq_none_iff.1 hcompare).imp (⟨x, hx, ·⟩) (⟨y, hy, ·⟩)
    rcases hab with ⟨ha, hb⟩ | ⟨hkind, -⟩
    · exact absurd hnan (not_or.2 ⟨hzero ha, hzero hb⟩)
    · exact ⟨hkind, hnan⟩
  · rintro ⟨hkind, hnan⟩
    have hvar : a.kind ≠ .variableRef := by
      intro hvar
      obtain ⟨m, rfl⟩ := exists_eq_variableRef hvar
      obtain ⟨n, rfl⟩ := exists_eq_variableRef (hkind ▸ hvar)
      rcases hnan with ⟨x, hx, -⟩ | ⟨x, hx, -⟩ <;> cases hx
    obtain ⟨x, hx⟩ := numberView_of_kind_ne hvar
    obtain ⟨y, hy⟩ := numberView_of_kind_ne (hkind ▸ hvar)
    refine ⟨.inr ⟨hkind, hvar⟩, x, y, hx, hy, Binary.compare?_eq_none_iff.2 ?_⟩
    rcases hnan with ⟨z, hz, hnan⟩ | ⟨z, hz, hnan⟩
    · exact .inl (Except.ok.inj (hz.symm.trans hx) ▸ hnan)
    · exact .inr (Except.ok.inj (hz.symm.trans hy) ▸ hnan)

/-- **Values in exchanged places** are ordered the other way round. -/
theorem compare?_swap_of_ok (h : a.compare? b = .ok o) :
    b.compare? a = .ok (o.map Ordering.swap) := by
  obtain ⟨hab, x, y, hx, hy, rfl⟩ := compare?_eq_ok_iff.1 h
  exact compare?_eq_ok_iff.2 ⟨hab.symm, y, x, hy, hx, Binary.compare?_swap x y⟩

theorem compare?_swap_iff : a.compare? b = .ok o ↔ b.compare? a = .ok (o.map Ordering.swap) := by
  refine ⟨compare?_swap_of_ok, fun h => ?_⟩
  have hswap : (o.map Ordering.swap).map Ordering.swap = o := by rcases o with _ | _ | _ | _ <;> rfl
  rw [compare?_swap_of_ok h, hswap]

/-- Values of different kinds in exchanged places are refused with the kinds exchanged. -/
theorem Unordered.swap {k l : Kind} (h : a.Unordered b (.incomparable k l)) :
    b.Unordered a (.incomparable l k) := by
  cases h with
  | kinds hkind hp => exact .kinds hkind.symm hp.symm

theorem compare?_eq_incomparable_iff {k l : Kind} :
    a.compare? b = .error (.incomparable k l) ↔ b.compare? a = .error (.incomparable l k) := by
  rw [compare?_eq_error_iff, compare?_eq_error_iff]
  exact ⟨.swap, .swap⟩

end Value

/-! ## Operators on values -/

namespace OrderOp

variable {op : OrderOp} {a b c : Value} {t : Bool}

theorem apply_of_compare? {o : Option Ordering} (h : a.compare? b = .ok o) :
    op.apply a b = .ok (op.holds o) := by
  rw [apply, h]
  rfl

theorem apply_eq_ok_iff : op.apply a b = .ok t ↔ ∃ o, a.compare? b = .ok o ∧ op.holds o = t := by
  rw [apply]
  cases a.compare? b <;> simp [Except.map]

/-- **An operator on values** says of them what it says of the ranks of their number views. -/
theorem apply_eq_true_iff :
    op.apply a b = .ok true ↔ a.Comparable b ∧ ∃ x y, a.numberView = .ok x ∧ b.numberView = .ok y ∧
      x.isNaN = false ∧ y.isNaN = false ∧ op.Relates x.rank y.rank := by
  rw [apply_eq_ok_iff]
  constructor
  · rintro ⟨o, ho, hop⟩
    obtain ⟨hab, x, y, hx, hy, rfl⟩ := Value.compare?_eq_ok_iff.1 ho
    cases hcompare : x.compare? y with
    | none =>
      rw [hcompare, forall_not_holds_iff.2 rfl] at hop
      cases hop
    | some o =>
      rw [hcompare] at hop
      obtain ⟨hxn, hyn, rfl⟩ := Binary.compare?_eq_some_iff.1 hcompare
      exact ⟨hab, x, y, hx, hy, hxn, hyn, holds_compare_iff.1 hop⟩
  · rintro ⟨hab, x, y, hx, hy, hxn, hyn, hrel⟩
    exact ⟨_, Value.compare?_eq_ok_iff.2
      ⟨hab, x, y, hx, hy, Binary.compare?_eq_some_iff.2 ⟨hxn, hyn, rfl⟩⟩, holds_compare_iff.2 hrel⟩

/-- **An operator and its converse** say the same of values in exchanged places. -/
theorem apply_converse_iff : op.apply a b = .ok t ↔ op.converse.apply b a = .ok t := by
  have hswap {op : OrderOp} {a b : Value} (h : op.apply a b = .ok t) :
      op.converse.apply b a = .ok t := by
    obtain ⟨o, ho, rfl⟩ := apply_eq_ok_iff.1 h
    rw [apply_of_compare? (Value.compare?_swap_of_ok ho), holds_converse]
  refine ⟨hswap, fun h => ?_⟩
  rw [← converse_converse op]
  exact hswap h

/-- Every operator is false exactly of values that are not ordered because of a NaN. -/
theorem forall_apply_eq_false_iff :
    (∀ op : OrderOp, op.apply a b = .ok false) ↔ a.compare? b = .ok none := by
  constructor
  · intro h
    obtain ⟨o, ho, -⟩ := apply_eq_ok_iff.1 (h .lt)
    have hnone : o = none := forall_not_holds_iff.1 fun op =>
      Except.ok.inj ((apply_of_compare? ho).symm.trans (h op))
    rwa [hnone] at ho
  · intro h op
    rw [apply_of_compare? h, forall_not_holds_iff.2 rfl]

/-- **`<=` is reflexive** on the values whose view is no NaN, and on no others. -/
theorem le_refl_iff : le.apply a a = .ok true ↔ ∃ x, a.numberView = .ok x ∧ x.isNaN = false := by
  rw [apply_eq_true_iff]
  constructor
  · rintro ⟨-, x, -, hx, -, hxn, -⟩
    exact ⟨x, hx, hxn⟩
  · rintro ⟨x, hx, hxn⟩
    have hvar : a.kind ≠ .variableRef := by
      intro hvar
      obtain ⟨name, rfl⟩ := Value.exists_eq_variableRef hvar
      cases hx
    exact ⟨.inr ⟨rfl, hvar⟩, x, x, hx, hx, hxn, hxn, Int.le_refl _⟩

/-- **`<=` is transitive.** -/
theorem le_trans (hab : le.apply a b = .ok true) (hbc : le.apply b c = .ok true) :
    le.apply a c = .ok true := by
  obtain ⟨hab, x, y, hx, hy, hxn, -, hxy⟩ := apply_eq_true_iff.1 hab
  obtain ⟨hbc, y', z, hy', hz, -, hzn, hyz⟩ := apply_eq_true_iff.1 hbc
  obtain rfl := Except.ok.inj (hy.symm.trans hy')
  exact apply_eq_true_iff.2 ⟨hab.trans hbc, x, z, hx, hz, hxn, hzn, Int.le_trans hxy hyz⟩

/-- Of equal values the first is not less than the second. -/
theorem lt_of_equal (h : a.equal b = true) : lt.apply a b ≠ .ok true := by
  intro hlt
  rw [apply, Value.compare?_eq_of_equal h (Value.equal_self b), ← apply] at hlt
  obtain ⟨-, x, y, hx, hy, -, -, hxy⟩ := apply_eq_true_iff.1 hlt
  obtain rfl := Except.ok.inj (hx.symm.trans hy)
  exact Int.lt_irrefl _ hxy

end OrderOp

namespace Value

variable {a b c : Value}

/-- Of ordered values exactly one is true: the first is less, it is greater, or neither. -/
theorem trichotomy {o : Ordering} (h : a.compare? b = .ok (some o)) :
    ∃ lt gt le ge, OrderOp.lt.apply a b = .ok lt ∧ OrderOp.gt.apply a b = .ok gt ∧
      OrderOp.le.apply a b = .ok le ∧ OrderOp.ge.apply a b = .ok ge ∧
      [lt, gt, le && ge].count true = 1 := by
  refine ⟨_, _, _, _, OrderOp.apply_of_compare? h, OrderOp.apply_of_compare? h,
    OrderOp.apply_of_compare? h, OrderOp.apply_of_compare? h, ?_⟩
  cases o <;> decide

/-- Numbers are equal in order exactly if they are equal values and no NaNs. -/
theorem compare?_number_eq_iff {x y : Single} :
    (number x).compare? (number y) = .ok (some .eq) ↔
      (number x).equal (number y) = true ∧ x.isNaN = false ∧ y.isNaN = false := by
  have hcompare : (number x).compare? (number y) = .ok (x.compare? y) := rfl
  have heq : x.compare? y = some .eq ↔ x.numEq y = true := beq_iff_eq.symm
  have hsame : (number x).equal (number y) = (x.numEq y || (x.isNaN && y.isNaN)) := rfl
  rw [hcompare, Except.ok.injEq, heq, hsame, Bool.or_eq_true, Bool.and_eq_true]
  constructor
  · intro h
    obtain ⟨hx, hy, -⟩ := Binary.numEq_iff.1 h
    exact ⟨.inl h, hx, hy⟩
  · rintro ⟨h | ⟨hnan, -⟩, hx, -⟩
    · exact h
    · exact absurd (hnan.symm.trans hx) (by decide)

/-- **Ordering is a partial order on number views.** A comparison succeeds for two values without
payload and for two values of one kind that are no variables. It fails otherwise, and every operator
with it: with the kinds in the order of the operands, or with the left one of two variables. In
exchanged places values are ordered the other way round and refused with the kinds exchanged, and a
converse operator says the same. Values are not ordered exactly if they are of one kind and a view
is a NaN, and then every operator is false; of ordered values either the first is less, or it is
greater, or both `<=` and `>=` hold. On values whose view is no NaN `<=` is reflexive, and it is
transitive, also between values without payload. Numbers are equal in order exactly if they are
equal and no NaNs, and equal values of any kind are never less or greater. -/
theorem ordering_laws (a b c : Value) :
    ((∃ o, a.compare? b = .ok o) ↔
      (a.hasPayload = false ∧ b.hasPayload = false) ∨ (a.kind = b.kind ∧ a.kind ≠ .variableRef)) ∧
    (∀ e, (a.compare? b = .error e ↔ a.Unordered b e) ∧
      ∀ op : OrderOp, op.apply a b = .error e ↔ a.Unordered b e) ∧
    (∀ o, a.compare? b = .ok o ↔ b.compare? a = .ok (o.map Ordering.swap)) ∧
    (∀ k l, a.compare? b = .error (.incomparable k l) ↔ b.compare? a = .error (.incomparable l k)) ∧
    (∀ (op : OrderOp) t, op.apply a b = .ok t ↔ op.converse.apply b a = .ok t) ∧
    (a.compare? b = .ok none ↔ a.kind = b.kind ∧ (a.HasNaNView ∨ b.HasNaNView)) ∧
    (a.compare? b = .ok none ↔ ∀ op : OrderOp, op.apply a b = .ok false) ∧
    (∀ o, a.compare? b = .ok (some o) →
      ∃ lt gt le ge, OrderOp.lt.apply a b = .ok lt ∧ OrderOp.gt.apply a b = .ok gt ∧
        OrderOp.le.apply a b = .ok le ∧ OrderOp.ge.apply a b = .ok ge ∧
        [lt, gt, le && ge].count true = 1) ∧
    (OrderOp.le.apply a a = .ok true ↔ ∃ x, a.numberView = .ok x ∧ x.isNaN = false) ∧
    (OrderOp.le.apply a b = .ok true → OrderOp.le.apply b c = .ok true →
      OrderOp.le.apply a c = .ok true) ∧
    (∀ x y, a = .number x → b = .number y →
      (a.compare? b = .ok (some .eq) ↔ a.equal b = true ∧ x.isNaN = false ∧ y.isNaN = false)) ∧
    (a.equal b = true → OrderOp.lt.apply a b ≠ .ok true ∧ OrderOp.gt.apply a b ≠ .ok true) := by
  have hok : (∃ o, a.compare? b = .ok o) ↔ a.Comparable b := by
    constructor
    · rintro ⟨o, ho⟩
      exact (compare?_eq_ok_iff.1 ho).1
    · intro h
      obtain ⟨x, y, -, -, hcompare⟩ := h.compare?_eq
      exact ⟨_, hcompare⟩
  refine ⟨hok, fun e => ⟨compare?_eq_error_iff, fun op => OrderOp.apply_eq_error_iff⟩,
    fun o => compare?_swap_iff, fun k l => compare?_eq_incomparable_iff,
    fun op t => OrderOp.apply_converse_iff, compare?_eq_none_iff,
    OrderOp.forall_apply_eq_false_iff.symm, fun o => trichotomy, OrderOp.le_refl_iff,
    OrderOp.le_trans, ?_, fun h => ⟨OrderOp.lt_of_equal h, fun hgt => ?_⟩⟩
  · rintro x y rfl rfl
    exact compare?_number_eq_iff
  · rw [equal_comm] at h
    exact OrderOp.lt_of_equal h (OrderOp.apply_converse_iff.1 hgt)

/-- The zeros are equal in order and lead over to one, whatever their signs. -/
theorem ordering_of_zeros_and_one :
    (number (.zero .single true)).compare? (number (.zero .single false)) = .ok (some .eq) ∧
    (number (.zero .single true)).equal (number (.zero .single false)) = true ∧
    OrderOp.lt.apply (number (.zero .single true)) (number (.zero .single false)) ≠ .ok true ∧
    OrderOp.le.apply (number (.zero .single true)) (number (.zero .single false)) = .ok true ∧
    OrderOp.le.apply (number (.zero .single false)) (number (numberOfBool true)) = .ok true ∧
    OrderOp.le.apply (number (.zero .single true)) (number (numberOfBool true)) = .ok true := by
  have hle : OrderOp.le.apply (number (.zero .single true)) (number (.zero .single false)) =
      .ok true := by
    decide +kernel
  have hone : OrderOp.le.apply (number (.zero .single false)) (number (numberOfBool true)) =
      .ok true := by
    decide +kernel
  have hequal : (number (.zero .single true)).equal (number (.zero .single false)) = true := by
    decide +kernel
  obtain ⟨-, -, -, -, -, -, -, -, -, htrans, hnumbers, hstrict⟩ :=
    ordering_laws (number (.zero .single true)) (number (.zero .single false))
      (number (numberOfBool true))
  have hcompare := (hnumbers _ _ rfl rfl).2 ⟨hequal, by decide, by decide⟩
  exact ⟨hcompare, hequal, (hstrict hequal).1, hle, hone, htrans hle hone⟩

end Value

end ScriptCell
