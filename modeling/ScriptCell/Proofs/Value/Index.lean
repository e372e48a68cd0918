import Mathlib.Data.Set.Card
import ScriptCell.Proofs.Value.Equality

/-!
# Tables keyed by values

Inserting a value changes what a table finds for the values equal to it and for no others
(`Index.find?_insert`). So a table made of a list finds for a value the first position in the list
that holds an equal one (`Index.find?_ofList`), and it has one key for each class of equal values
(`Index.size_ofList`).
-/

namespace ScriptCell

/-! ## Classes of equal values -/

namespace Value

/-- The classes of equal values in a list. -/
def classes (vs : List Value) : Set (Quotient equalSetoid) :=
  {q | ∃ v ∈ vs, Quotient.mk equalSetoid v = q}

/-- A value's class is among those of a list exactly if the list has an equal value. -/
theorem mk_mem_classes {vs : List Value} {v : Value} :
    Quotient.mk equalSetoid v ∈ classes vs ↔ ∃ u ∈ vs, u.equal v = true := by
  constructor
  · rintro ⟨u, hu, h⟩
    exact ⟨u, hu, Quotient.exact h⟩
  · rintro ⟨u, hu, h⟩
    exact ⟨u, hu, Quotient.sound h⟩

theorem classes_concat (vs : List Value) (v : Value) :
    classes (vs ++ [v]) = insert (Quotient.mk equalSetoid v) (classes vs) := by
  ext q
  simp only [classes, List.mem_append, List.mem_singleton, or_and_right, exists_or, exists_eq_left,
    Set.mem_ofPred_eq, Set.mem_insert_iff]
  rw [or_comm, eq_comm]

theorem finite_classes (vs : List Value) : (classes vs).Finite := by
  induction vs using List.reverseRecOn with
  | nil => simp [classes]
  | append_singleton vs v ih =>
    rw [classes_concat]
    exact ih.insert _

end Value

namespace Index

/-! ## One insertion -/

/-- Comparing items adds nothing to comparing values. -/
theorem find?_eq (t : Index) (v : Value) :
    t.find? v = (t.entries.find? fun e => e.1.equal v).map (·.2) := by
  have h (e : Value × Nat) :
      (decide (e.1.keyItems = v.keyItems) && e.1.equal v) = e.1.equal v := by
    cases he : e.1.equal v with
    | false => rw [Bool.and_false]
    | true => rw [Bool.and_true, decide_eq_true (Value.equal_iff_keyItems_eq.1 he)]
  simp only [find?, h]

/-- Equal values are one key. -/
theorem find?_congr (t : Index) {v w : Value} (h : v.equal w = true) : t.find? v = t.find? w := by
  simp only [find?_eq, Value.equal_congr_right h]

/-- What a table finds after an insertion: what it found before, else the new position for the
values that are equal to the new key. -/
theorem find?_insert (t : Index) (v w : Value) (p : Nat) :
    (t.insert v p).find? w = (t.find? w).or (if v.equal w then some p else none) := by
  unfold insert
  cases hv : t.find? v with
  | some q =>
    cases h : v.equal w with
    | false => simp
    | true => simp [← t.find?_congr h, hv]
  | none =>
    simp only [find?_eq, List.find?_append, Option.map_or]
    cases h : v.equal w <;> simp [h]

/-- A table gets one more key exactly from a value that it does not find. -/
theorem size_insert (t : Index) (v : Value) (p : Nat) :
    (t.insert v p).size = if t.find? v = none then t.size + 1 else t.size := by
  unfold insert
  cases t.find? v <;> simp [size]

/-! ## Whole lists -/

theorem ofList_concat (vs : List Value) (v : Value) :
    ofList (vs ++ [v]) = (ofList vs).insert v vs.length := by
  simp [ofList, List.zipIdx_append]

/-- **The position of a key.** A table made of a list finds for a value the first position that
holds an equal one. -/
theorem find?_ofList (vs : List Value) (v : Value) :
    (ofList vs).find? v = vs.findIdx? fun u => u.equal v := by
  induction vs using List.reverseRecOn with
  | nil => rfl
  | append_singleton vs u ih =>
    rw [ofList_concat, find?_insert, ih, List.findIdx?_append]
    cases h : u.equal v <;> simp [h]

/-- Every key stands in the list at the position that is stored with it, and is found there. -/
theorem find?_of_mem_entries {vs : List Value} {e : Value × Nat} (he : e ∈ (ofList vs).entries) :
    vs[e.2]? = some e.1 ∧ (ofList vs).find? e.1 = some e.2 := by
  induction vs using List.reverseRecOn with
  | nil => cases he
  | append_singleton vs v ih =>
    rw [ofList_concat] at he ⊢
    have hold (h : e ∈ (ofList vs).entries) :
        (vs ++ [v])[e.2]? = some e.1 ∧ ((ofList vs).insert v vs.length).find? e.1 = some e.2 := by
      obtain ⟨h1, h2⟩ := ih h
      refine ⟨?_, by rw [find?_insert, h2, Option.some_or]⟩
      rw [List.getElem?_append_left (List.getElem?_eq_some_iff.1 h1).1, h1]
    cases hv : (ofList vs).find? v with
    | some q =>
      simp only [insert, hv] at he
      exact hold he
    | none =>
      simp only [insert, hv, List.mem_append, List.mem_singleton] at he
      rcases he with he | rfl
      · exact hold he
      · exact ⟨by simp, by rw [find?_insert, hv]; simp⟩

/-- The position found for a value of the list is the least one that holds an equal value. -/
theorem isLeast_find?_ofList (vs : List Value) (i : Fin vs.length) :
    ∃ p : Fin vs.length, (ofList vs).find? vs[i] = some p.val ∧
      IsLeast {q : Fin vs.length | vs[q].equal vs[i] = true} p := by
  obtain ⟨p, hp⟩ : ∃ p, vs.findIdx? (fun u => u.equal vs[i]) = some p := by
    rw [← Option.isSome_iff_exists, List.findIdx?_isSome, List.any_eq_true]
    exact ⟨vs[i], List.getElem_mem _, Value.equal_self _⟩
  obtain ⟨hlt, heq, hleast⟩ := List.findIdx?_eq_some_iff_getElem.1 hp
  refine ⟨⟨p, hlt⟩, by rw [find?_ofList, hp], heq, fun q hq => ?_⟩
  by_contra hlt'
  exact hleast q (not_le.1 hlt') hq

/-- Two values of a list share a position exactly if they are equal. -/
theorem find?_ofList_eq_iff (vs : List Value) (i j : Fin vs.length) :
    (ofList vs).find? vs[i] = (ofList vs).find? vs[j] ↔ vs[i].equal vs[j] = true := by
  refine ⟨fun h => ?_, fun h => find?_congr _ h⟩
  obtain ⟨p, hp, hi, -⟩ := isLeast_find?_ofList vs i
  obtain ⟨q, hq, hj, -⟩ := isLeast_find?_ofList vs j
  rw [hp, hq, Option.some_inj, Fin.val_inj] at h
  subst h
  refine Value.equal_trans ?_ hj
  rw [Value.equal_comm]
  exact hi

/-- **The number of keys.** A table made of a list has one key for each class of equal values. -/
theorem size_ofList (vs : List Value) : (ofList vs).size = (Value.classes vs).ncard := by
  induction vs using List.reverseRecOn with
  | nil => simp [Value.classes, ofList, size, empty]
  | append_singleton vs v ih =>
    rw [ofList_concat, size_insert, find?_ofList, Value.classes_concat, ih]
    split
    · next h =>
      rw [List.findIdx?_eq_none_iff] at h
      rw [Set.ncard_insert_of_notMem _ (Value.finite_classes vs)]
      rw [Value.mk_mem_classes]
      rintro ⟨u, hu, he⟩
      rw [h u hu] at he
      cases he
    · next h =>
      rw [Set.ncard_insert_of_mem]
      rw [Value.mk_mem_classes]
      rw [List.findIdx?_eq_none_iff] at h
      simpa using h

/-- **Equality, hashing and tables are one key relation.** Equality is an equivalence, NaNs
included, and holds exactly between values that feed the same items to a hash. In a table made of
any list, two positions share a key exactly if their values are equal, the position stored for a key
is the least one with an equal value, and there are as many keys as classes of equal values. -/
theorem keys_are_equality_classes :
    (Equivalence fun a b : Value => a.equal b = true) ∧
    (∀ a b : Value, a.equal b = true ↔ a.keyItems = b.keyItems) ∧
    ∀ vs : List Value,
      (∀ i j : Fin vs.length,
        (ofList vs).find? vs[i] = (ofList vs).find? vs[j] ↔ vs[i].equal vs[j] = true) ∧
      (∀ i : Fin vs.length, ∃ p : Fin vs.length, (ofList vs).find? vs[i] = some p.val ∧
        IsLeast {q : Fin vs.length | vs[q].equal vs[i] = true} p) ∧
      (∀ e ∈ (ofList vs).entries, vs[e.2]? = some e.1 ∧ (ofList vs).find? e.1 = some e.2) ∧
      (ofList vs).size = (Value.classes vs).ncard :=
  ⟨Value.equal_equivalence, fun _ _ => Value.equal_iff_keyItems_eq, fun vs =>
    ⟨find?_ofList_eq_iff vs, isLeast_find?_ofList vs, fun _ => find?_of_mem_entries,
      size_ofList vs⟩⟩

end Index

end ScriptCell
