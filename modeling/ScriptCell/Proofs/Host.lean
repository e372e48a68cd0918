import ScriptCell.Store

/-!
# The two ways from the host

`Value.ofHost` goes by the constructors of a type, `Value.ofNative` by the first row of a table that
takes the value. Every row does to its type what `ofHost` does (`Bridge.convert_eq_ofHost`), so it
does not matter which row takes a value (`Bridge.eq_ofHost_of_take?`), and whether some row does is
a property of the type alone (`findSome?_take?_isSome_iff`).

* `Value.ofNative_eq_ofHost`, `Value.ofNative_of_not_mem`: a lookup gives the value of the static
  conversion, or names a type that is not in the table.
* `host_bridges_agree`: the same on whole stores, with the types that are in the table.
-/

namespace ScriptCell

/-! ## Types that are in the table -/

namespace HostType

variable {t : HostType}

/-- The types whose values a lookup takes. -/
def natives : List HostType := scalars ++ scalars.map .option ++ [.unit]

theorem mem_natives_iff :
    t ∈ natives ↔ t ∈ scalars ∨ (∃ u ∈ scalars, t = .option u) ∨ t = .unit := by
  simp [natives, eq_comm]

theorem int_mem_scalars (i : IntType) : .int i ∈ scalars := by cases i <;> decide

/-- The scalars are the types with a conversion of their own that are neither optional nor
references. -/
theorem mem_scalars_iff :
    t ∈ scalars ↔ t.isStatic = true ∧ (∀ u, t ≠ .option u) ∧ (∀ u, t ≠ .ref u) := by
  cases t with
  | int i => simp [int_mem_scalars, isStatic]
  | option u => simp [scalars]
  | ref u => simp [scalars]
  | _ => simp [scalars, isStatic]

@[simp] theorem isStatic_option : (option t).isStatic = t.isStatic := rfl

theorem isStatic_of_mem_scalars (h : t ∈ scalars) : t.isStatic = true := (mem_scalars_iff.1 h).1

theorem option_mem_natives_iff : .option t ∈ natives ↔ t ∈ scalars := by
  simp [mem_natives_iff, mem_scalars_iff]

theorem ref_not_mem_natives : .ref t ∉ natives := by
  simp [mem_natives_iff, mem_scalars_iff]

theorem named_not_mem_natives (name : String) : .named name ∉ natives := by
  simp [mem_natives_iff, mem_scalars_iff, isStatic]

theorem ne_option_self : t ≠ .option t := by
  intro h
  simpa using congrArg sizeOf h

/-- Of the types in the table only the type with one element has no conversion of its own. -/
theorem isStatic_of_mem_natives (h : t ∈ natives) (hne : t ≠ .unit) : t.isStatic = true := by
  obtain h | ⟨u, hu, rfl⟩ | rfl := mem_natives_iff.1 h
  · exact isStatic_of_mem_scalars h
  · rw [isStatic_option]
    exact isStatic_of_mem_scalars hu
  · exact absurd rfl hne

end HostType

/-! ## Rows -/

namespace Bridge

variable {b : Bridge} {t : HostType} {x : t.Carrier} {v : Value}

theorem map_type_bridges : bridges.map type = HostType.scalars := by
  simp [bridges, HostType.scalars, Function.comp_def]

theorem exists_mem_bridges_iff : (∃ b ∈ bridges, b.type = t) ↔ t ∈ HostType.scalars := by
  rw [← map_type_bridges, List.mem_map]

theorem take?_type (b : Bridge) (x : b.type.Carrier) : b.take? b.type x = some (b.convert x) := by
  simp [take?]

theorem take?_option (b : Bridge) (x : Option b.type.Carrier) :
    b.take? (.option b.type) x = some (x.elim .null b.convert) := by
  have h : HostType.option b.type ≠ b.type := HostType.ne_option_self.symm
  simp only [take?, h, dite_true, dite_false]
  rfl

/-- A row takes a value by the type of it. -/
theorem take?_isSome_iff : (b.take? t x).isSome = true ↔ t = b.type ∨ t = .option b.type := by
  unfold take?
  split
  · simp [*]
  · split <;> simp [*]

/-- A row does to its type what the conversion of the type does. -/
theorem convert_eq_ofHost (hb : b ∈ bridges) (h : b.type.isStatic = true) (x : b.type.Carrier) :
    b.convert x = .ofHost b.type h x := by
  simp only [bridges, List.mem_append, List.mem_map, List.mem_cons, List.not_mem_nil,
    or_false] at hb
  obtain ((rfl | rfl) | ⟨i, -, rfl⟩) | rfl | rfl | rfl | rfl | rfl := hb <;> rfl

/-- What a row takes is what the conversion of the type gives, be the value optional or not. -/
theorem eq_ofHost_of_take? (hb : b ∈ bridges) (h : t.isStatic = true) (hv : b.take? t x = some v) :
    v = .ofHost t h x := by
  obtain rfl | rfl := take?_isSome_iff.1 (Option.isSome_of_eq_some hv)
  · rw [take?_type b x] at hv
    cases hv
    exact convert_eq_ofHost hb h x
  · rw [take?_option b x] at hv
    cases hv
    cases x with
    | none => rfl
    | some y => exact convert_eq_ofHost hb h y

/-- Whether some row takes a value depends on the type alone. -/
theorem findSome?_take?_isSome_iff :
    (bridges.findSome? fun b => b.take? t x).isSome = true ↔
      t ∈ HostType.scalars ∨ ∃ u ∈ HostType.scalars, t = .option u := by
  simp only [List.findSome?_isSome_iff, take?_isSome_iff, ← exists_mem_bridges_iff]
  constructor
  · rintro ⟨b, hb, rfl | rfl⟩
    · exact .inl ⟨b, hb, rfl⟩
    · exact .inr ⟨b.type, ⟨b, hb, rfl⟩, rfl⟩
  · rintro (⟨b, hb, rfl⟩ | ⟨_, ⟨b, hb, rfl⟩, rfl⟩)
    · exact ⟨b, hb, .inl rfl⟩
    · exact ⟨b, hb, .inr rfl⟩

end Bridge

/-! ## Lookups -/

namespace Value

variable {t : HostType}

/-- A lookup of a type in the table gives what the conversion of the type gives. -/
theorem ofNative_eq_ofHost (ht : t ∈ HostType.natives) (h : t.isStatic = true) (x : t.Carrier) :
    ofNative t x = .ok (.ofHost t h x) := by
  have hu : t ≠ .unit := by rintro rfl; cases h
  have hrow : t ∈ HostType.scalars ∨ ∃ u ∈ HostType.scalars, t = .option u := by
    simpa [HostType.mem_natives_iff, hu] using ht
  obtain ⟨v, hv⟩ := Option.isSome_iff_exists.1 (Bridge.findSome?_take?_isSome_iff (x := x).2 hrow)
  obtain ⟨b, hb, hbv⟩ := List.exists_of_findSome?_eq_some hv
  simp only [ofNative, hv, Bridge.eq_ofHost_of_take? hb h hbv]

theorem findSome?_take?_eq_none (h : t ∉ HostType.scalars)
    (h' : ∀ u ∈ HostType.scalars, t ≠ .option u) (x : t.Carrier) :
    (bridges.findSome? fun b => b.take? t x) = none := by
  rw [← Option.not_isSome_iff_eq_none, Bridge.findSome?_take?_isSome_iff]
  rintro (ht | ⟨u, hu, rfl⟩)
  · exact h ht
  · exact h' u hu rfl

theorem ofNative_unit (x : HostType.unit.Carrier) : ofNative .unit x = .ok .null := by
  rw [ofNative, findSome?_take?_eq_none (by decide) (by simp)]
  rfl

/-- A lookup of any other type fails and names the type. -/
theorem ofNative_of_not_mem (ht : t ∉ HostType.natives) (x : t.Carrier) :
    ofNative t x = .error (.unsupportedType t.name) := by
  simp only [HostType.mem_natives_iff, not_or, not_exists, not_and] at ht
  obtain ⟨hs, ho, hu⟩ := ht
  simp only [ofNative, findSome?_take?_eq_none hs ho, hu, if_false]

/-- Whether a lookup succeeds depends on the type alone. -/
theorem exists_ofNative_eq_ok_iff (x : t.Carrier) :
    (∃ v, ofNative t x = .ok v) ↔ t ∈ HostType.natives := by
  by_cases ht : t ∈ HostType.natives
  · refine iff_of_true ?_ ht
    by_cases hu : t = .unit
    · subst hu
      exact ⟨_, ofNative_unit x⟩
    · exact ⟨_, ofNative_eq_ofHost ht (HostType.isStatic_of_mem_natives ht hu) x⟩
  · simp [ofNative_of_not_mem ht, ht]

end Value

/-! ## Cells -/

namespace Step

variable {n : Nat} {t : HostType} {x : t.Carrier} {v : Value}

/-- Filling a cell from a lookup that succeeds leaves nothing of what the cell held. -/
theorem run_trySet_of_ok (h : Value.ofNative t x = .ok v) (s : Store n) (r : Fin n) :
    (Step.trySet r t x).run s = (s.set r v, .ok (.written v)) := by
  simp only [run, Value.trySet, h, Except.map]

/-- Filling a cell from a lookup that fails leaves the cell cleared. -/
theorem run_trySet_of_error {e : Error} (h : Value.ofNative t x = .error e) (s : Store n)
    (r : Fin n) :
    (Step.trySet r t x).run s = (s.set r .undefined, .error e) := by
  simp only [run, Value.trySet, h, Except.map]

/-- Filling a cell from a lookup of a type in the table is writing the value of the static
conversion. -/
theorem run_trySet_eq_write (ht : t ∈ HostType.natives) (h : t.isStatic = true) (s : Store n)
    (r : Fin n) : (Step.trySet r t x).run s = (Step.write r (.host t h x)).run s :=
  run_trySet_of_ok (Value.ofNative_eq_ofHost ht h x) s r

end Step

/-- **The two ways from the host agree** on every type that both know, value by value and cell by
cell. A lookup of any other type fails with its name; among those types are all references, doubly
optional values, the optional unit and every type known by its name only. -/
theorem host_bridges_agree :
    (∀ t ∈ HostType.scalars, ∃ h : t.isStatic = true,
      (∀ x : t.Carrier, Value.ofNative t x = .ok (.ofHost t h x) ∧
        Value.ofNative (.option t) (some x) = .ok (.ofHost t h x)) ∧
      Value.ofNative (.option t) none = .ok .null ∧ Value.ofHost (.option t) h none = .null) ∧
    Value.ofNative .unit () = .ok .null ∧
    (∀ t ∈ HostType.natives, ∀ (h : t.isStatic = true) (x : t.Carrier) (n : Nat) (s : Store n)
      (r : Fin n), (Step.trySet r t x).run s = (Step.write r (.host t h x)).run s) ∧
    (∀ (n : Nat) (s : Store n) (r : Fin n),
      (Step.trySet r .unit ()).run s = (s.set r .null, .ok (.written .null))) ∧
    (∀ t ∉ HostType.natives, ∀ x : t.Carrier,
      Value.ofNative t x = .error (.unsupportedType t.name) ∧
      ∀ (n : Nat) (s : Store n) (r : Fin n),
        (Step.trySet r t x).run s = (s.set r .undefined, .error (.unsupportedType t.name))) ∧
    (∀ (t : HostType) (x : t.Carrier), (∃ v, Value.ofNative t x = .ok v) ↔ t ∈ HostType.natives) ∧
    (∀ t : HostType, .ref t ∉ HostType.natives ∧ .option (.option t) ∉ HostType.natives) ∧
    .option .unit ∉ HostType.natives ∧ ∀ name, .named name ∉ HostType.natives := by
  refine ⟨fun t ht => ?_, Value.ofNative_unit _,
    fun t ht h x n s r => Step.run_trySet_eq_write ht h s r,
    fun n s r => Step.run_trySet_of_ok (Value.ofNative_unit _) s r, fun t ht x => ?_,
    fun t x => Value.exists_ofNative_eq_ok_iff x, fun t => ⟨HostType.ref_not_mem_natives, ?_⟩, ?_,
    HostType.named_not_mem_natives⟩
  · have h := HostType.isStatic_of_mem_scalars ht
    have ho : .option t ∈ HostType.natives := HostType.option_mem_natives_iff.2 ht
    exact ⟨h, fun x => ⟨Value.ofNative_eq_ofHost (HostType.mem_natives_iff.2 (.inl ht)) h x,
      Value.ofNative_eq_ofHost ho h (some x)⟩, Value.ofNative_eq_ofHost ho h none, rfl⟩
  · have h := Value.ofNative_of_not_mem ht x
    exact ⟨h, fun n s r => Step.run_trySet_of_error h s r⟩
  · simp [HostType.option_mem_natives_iff, HostType.mem_scalars_iff]
  · simp [HostType.option_mem_natives_iff, HostType.mem_scalars_iff, HostType.isStatic]

/-- An integer that may be absent, and a list of integers. -/
theorem host_bridges_agree_integer :
    .int .u16 ∈ HostType.scalars ∧ .named "alloc::vec::Vec<u16>" ∉ HostType.natives ∧
    Value.ofNative (.option (.int .u16)) (some ⟨4, by decide⟩) =
      .ok (.number (.ofBits .single 0x40800000)) ∧
    Value.ofNative (.named "alloc::vec::Vec<u16>") () =
      .error (.unsupportedType "alloc::vec::Vec<u16>") := by
  obtain ⟨hscalar, -, -, -, hother, -, -, -, hnamed⟩ := host_bridges_agree
  have hmem : .int .u16 ∈ HostType.scalars := by decide
  obtain ⟨h, hvalue, -⟩ := hscalar _ hmem
  have hfour : Binary.ofInt .single 4 = .ofBits .single 0x40800000 := by decide +kernel
  exact ⟨hmem, hnamed _, hfour ▸ (hvalue ⟨4, by decide⟩).2, (hother _ (hnamed _) ()).1⟩

end ScriptCell
