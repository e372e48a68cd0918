import ScriptCell.Text.Encoding

/-!
# Text as bytes, and lists cut into pieces

`encode` is the inverse of decoding (`decode?_eq_some_iff`). A newline is one byte that occurs in no
other character (`mem_encode_newline`), so that bytes are text with and without a newline behind
them alike (`decode?_append_newline`).

Behind a separator a list can be cut without looking at the other side (`splitAfter_append`), and
consecutive pieces of a list are the pieces of what they consist of
(`splitAfter_flatten_of_append`).
-/

namespace ScriptCell

/-! ## Bytes of text -/

/-- The bytes of a text in UTF-8. -/
def encode (s : String) : List UInt8 := s.toList.flatMap String.utf8EncodeChar

theorem encode_append (s t : String) : encode (s ++ t) = encode s ++ encode t := by
  simp [encode]

/-- **Decoding inverts encoding, and refuses everything else.** -/
theorem decode?_eq_some_iff {bytes : List UInt8} {s : String} :
    decode? bytes = some s ↔ bytes = encode s := by
  have hs : s.toByteArray = ⟨(encode s).toArray⟩ := by
    rw [← String.utf8Encode_toList, List.utf8Encode, encode]
    exact ByteArray.ext (by simp)
  unfold decode? String.fromUTF8?
  constructor
  · intro h
    split at h
    · injection h with h
      have := congrArg String.toByteArray h
      rw [hs] at this
      simpa [String.fromUTF8] using this
    · cases h
  · rintro rfl
    rw [← hs, dif_pos s.isValidUTF8]
    rfl

@[simp] theorem decode?_encode (s : String) : decode? (encode s) = some s :=
  decode?_eq_some_iff.2 rfl

theorem encode_ne_nil {s : String} (h : s ≠ "") : encode s ≠ [] := by
  intro hnil
  have hs := decode?_encode s
  rw [hnil] at hs
  exact h (Option.some.inj (hs.symm.trans (decode?_encode "")))

/-- A byte below 128 is the whole encoding of the character with its number. -/
theorem utf8EncodeChar_of_mem {c : Char} {b : UInt8} (hb : b ∈ String.utf8EncodeChar c)
    (h : b.toNat < 128) : String.utf8EncodeChar c = [b] ∧ c.toNat = b.toNat := by
  have hc : c.toNat = c.val.toNat := rfl
  unfold String.utf8EncodeChar at hb ⊢
  simp only at hb ⊢
  split at hb
  · next hle =>
    rw [List.mem_singleton] at hb
    subst hb
    rw [UInt8.toNat_ofNat', if_pos hle]
    exact ⟨rfl, by omega⟩
  · exfalso
    split at hb
    · simp only [List.mem_cons, List.not_mem_nil, or_false] at hb
      rcases hb with rfl | rfl <;> rw [UInt8.toNat_ofNat'] at h <;> omega
    · split at hb <;> simp only [List.mem_cons, List.not_mem_nil, or_false] at hb
      · rcases hb with rfl | rfl | rfl <;> rw [UInt8.toNat_ofNat'] at h <;> omega
      · rcases hb with rfl | rfl | rfl | rfl <;> rw [UInt8.toNat_ofNat'] at h <;> omega

/-- The byte of a newline stands for nothing else. -/
theorem eq_newline_of_mem {c : Char} (h : (10 : UInt8) ∈ String.utf8EncodeChar c) : c = '\n' :=
  Char.toNat_inj.1 (utf8EncodeChar_of_mem h (by decide)).2

/-- A text holds a newline exactly if its bytes hold that of a newline. -/
theorem mem_encode_newline {s : String} : (10 : UInt8) ∈ encode s ↔ '\n' ∈ s.toList := by
  rw [encode, List.mem_flatMap]
  constructor
  · rintro ⟨c, hc, h⟩
    exact eq_newline_of_mem h ▸ hc
  · intro h
    exact ⟨'\n', h, by decide⟩

/-- **A newline behind bytes makes no difference to whether they are text.** -/
theorem decode?_append_newline (bytes : List UInt8) :
    decode? (bytes ++ [10]) = (decode? bytes).map (· ++ "\n") := by
  have hnl : encode "\n" = [10] := by decide
  cases h : decode? bytes with
  | some s =>
    rw [decode?_eq_some_iff] at h
    rw [Option.map_some, decode?_eq_some_iff, encode_append, hnl, h]
  | none =>
    rw [Option.map_none, Option.eq_none_iff_forall_ne_some]
    intro t ht
    rw [decode?_eq_some_iff] at ht
    -- the last character ends in the byte of a newline, so it is one
    rcases List.eq_nil_or_concat t.toList with hnil | ⟨cs, c, hcs⟩
    · rw [encode, hnil] at ht
      simp at ht
    · rw [encode, hcs, List.concat_eq_append, List.flatMap_append, List.flatMap_singleton] at ht
      have hlast : (10 : UInt8) ∈ String.utf8EncodeChar c := by
        obtain ⟨ds, d, hd⟩ := (List.eq_nil_or_concat (String.utf8EncodeChar c)).resolve_left
          String.utf8EncodeChar_ne_nil
        rw [List.concat_eq_append] at hd
        rw [hd, ← List.append_assoc] at ht
        have : 10 = d := by simpa using congrArg List.getLast? ht
        rw [hd, ← this]
        exact List.mem_append_right _ (List.mem_singleton_self _)
      rw [eq_newline_of_mem hlast] at ht
      have : bytes = encode (String.ofList cs) := by
        rw [encode, String.toList_ofList]
        exact List.append_cancel_right ht
      rw [this, decode?_encode] at h
      cases h

/-! ## Pieces -/

section
variable {α : Type} [DecidableEq α] {sep : α}

@[simp] theorem splitAfter_nil : splitAfter sep [] = [] := rfl

@[simp] theorem splitAfter_cons_self (xs : List α) :
    splitAfter sep (sep :: xs) = [sep] :: splitAfter sep xs := if_pos rfl

theorem splitAfter_cons_of_ne {x : α} (hx : x ≠ sep) {xs p : List α} {ps : List (List α)}
    (h : splitAfter sep xs = p :: ps) : splitAfter sep (x :: xs) = (x :: p) :: ps := by
  rw [splitAfter, if_neg hx, h]

/-- Only the empty list has no pieces. -/
theorem splitAfter_ne_nil {xs : List α} (h : xs ≠ []) : splitAfter sep xs ≠ [] := by
  intro hnil
  have := flatten_splitAfter sep xs
  rw [hnil] at this
  exact h this.symm

/-- A separator cuts. -/
theorem splitAfter_append_cons (xs ys : List α) :
    splitAfter sep (xs ++ sep :: ys) = splitAfter sep (xs ++ [sep]) ++ splitAfter sep ys := by
  induction xs with
  | nil => simp
  | cons x xs ih =>
    by_cases hx : x = sep
    · subst hx
      simp only [List.cons_append, splitAfter_cons_self, ih]
    · have hne : splitAfter sep (xs ++ [sep]) ≠ [] := splitAfter_ne_nil (by simp)
      obtain ⟨p, ps, hp⟩ := List.exists_cons_of_ne_nil hne
      rw [List.cons_append, List.cons_append, splitAfter_cons_of_ne hx hp,
        splitAfter_cons_of_ne hx (by rw [ih, hp, List.cons_append]), List.cons_append]

/-- **Behind a separator a list can be cut.** -/
theorem splitAfter_append {xs : List α} (h : ∀ x ∈ xs.getLast?, x = sep) (ys : List α) :
    splitAfter sep (xs ++ ys) = splitAfter sep xs ++ splitAfter sep ys := by
  rcases List.eq_nil_or_concat xs with rfl | ⟨zs, z, rfl⟩
  · rfl
  · rw [List.concat_eq_append] at h ⊢
    obtain rfl : z = sep := h z (by simp)
    rw [List.append_assoc, List.singleton_append, splitAfter_append_cons]

/-- Without separator there is one piece. -/
theorem splitAfter_of_notMem {xs : List α} (hne : xs ≠ []) (h : sep ∉ xs) :
    splitAfter sep xs = [xs] := by
  induction xs with
  | nil => exact absurd rfl hne
  | cons x xs ih =>
    rw [List.mem_cons, not_or] at h
    cases xs with
    | nil => rw [splitAfter, if_neg (Ne.symm h.1)]; rfl
    | cons y ys => exact splitAfter_cons_of_ne (Ne.symm h.1) (ih (by simp) h.2)

/-- A separator at the end alone belongs to the piece that it ends. -/
theorem splitAfter_concat {xs : List α} (h : sep ∉ xs) :
    splitAfter sep (xs ++ [sep]) = [xs ++ [sep]] := by
  induction xs with
  | nil => simp
  | cons x xs ih =>
    rw [List.mem_cons, not_or] at h
    exact splitAfter_cons_of_ne (Ne.symm h.1) (ih h.2)

/-- A piece has no separator but one at its end. -/
theorem exists_of_mem_splitAfter {xs p : List α} (h : p ∈ splitAfter sep xs) :
    ∃ q, sep ∉ q ∧ (p = q ∨ p = q ++ [sep]) := by
  induction xs generalizing p with
  | nil => cases h
  | cons x xs ih =>
    by_cases hx : x = sep
    · subst hx
      rw [splitAfter_cons_self, List.mem_cons] at h
      rcases h with rfl | h
      · exact ⟨[], List.not_mem_nil, .inr rfl⟩
      · exact ih h
    · cases hxs : splitAfter sep xs with
      | nil =>
        rw [splitAfter, if_neg hx, hxs, List.mem_singleton] at h
        exact ⟨[x], fun hsep => hx (List.mem_singleton.1 hsep).symm, .inl h⟩
      | cons r rs =>
        rw [splitAfter_cons_of_ne hx hxs, List.mem_cons] at h
        rw [hxs] at ih
        rcases h with rfl | h
        · obtain ⟨q, hq, hr⟩ := ih (.head _)
          have hcons : sep ∉ x :: q := by
            rw [List.mem_cons, not_or]
            exact ⟨Ne.symm hx, hq⟩
          exact ⟨x :: q, hcons, hr.imp (congrArg (x :: ·)) (congrArg (x :: ·))⟩
        · exact ih (.tail _ h)

/-- Behind a separator a list has as many pieces as separators. -/
theorem length_splitAfter {xs : List α} (h : ∀ x ∈ xs.getLast?, x = sep) :
    (splitAfter sep xs).length = xs.count sep := by
  induction xs with
  | nil => rfl
  | cons x xs ih =>
    have hxs : ∀ y ∈ xs.getLast?, y = sep := by
      intro y hy
      refine h y ?_
      rw [List.getLast?_cons, Option.mem_def.1 hy]
      rfl
    by_cases hx : x = sep
    · subst hx
      rw [splitAfter_cons_self, List.length_cons, ih hxs, List.count_cons_self]
    · have hne : xs ≠ [] := by
        rintro rfl
        exact hx (h x rfl)
      have hcut : splitAfter sep xs ≠ [] := splitAfter_ne_nil hne
      obtain ⟨p, ps, hp⟩ := List.exists_cons_of_ne_nil hcut
      rw [splitAfter_cons_of_ne hx hp, List.length_cons, List.count_cons_of_ne hx, ← ih hxs, hp,
        List.length_cons]

/-- What can stand behind a line: nothing, or a separator and the rest. -/
inductive Behind (sep : α) : List α → List α → Prop
  | nothing : Behind sep [] []
  | more (rest : List α) : Behind sep (sep :: rest) rest

/-- A line is a piece, with its separator if it has one. -/
theorem splitAfter_line {xs tail rest : List α} (hne : xs ≠ []) (h : sep ∉ xs)
    (ht : Behind sep tail rest) : ∃ p, (p = xs ∨ p = xs ++ [sep]) ∧
      splitAfter sep (xs ++ tail) = p :: splitAfter sep rest := by
  cases ht with
  | nothing =>
    refine ⟨xs, .inl rfl, ?_⟩
    rw [List.append_nil, splitAfter_of_notMem hne h, splitAfter_nil]
  | more =>
    refine ⟨xs ++ [sep], .inr rfl, ?_⟩
    rw [splitAfter_append_cons, splitAfter_concat h, List.singleton_append]

/-- A separator that is put behind a list belongs to the last piece, unless that has one already. -/
theorem splitAfter_append_sep {xs : List α} (hne : xs ≠ []) (h : xs.getLast? ≠ some sep) :
    ∃ ps p, splitAfter sep xs = ps ++ [p] ∧ splitAfter sep (xs ++ [sep]) = ps ++ [p ++ [sep]] := by
  induction xs with
  | nil => exact absurd rfl hne
  | cons x xs ih =>
    rcases xs with _ | ⟨y, ys⟩
    · have hx : x ≠ sep := fun hx => h (congrArg some hx)
      exact ⟨[], [x], splitAfter_of_notMem hne (by simp [hx.symm]),
        splitAfter_concat (by simp [hx.symm])⟩
    · rw [List.getLast?_cons_cons] at h
      obtain ⟨ps, p, hps, hps'⟩ := ih (List.cons_ne_nil y ys) h
      by_cases hx : x = sep
      · subst hx
        refine ⟨[x] :: ps, p, ?_, ?_⟩
        · rw [splitAfter_cons_self, hps, List.cons_append]
        · rw [List.cons_append, splitAfter_cons_self, hps', List.cons_append]
      · cases ps with
        | nil =>
          exact ⟨[], x :: p, splitAfter_cons_of_ne hx hps, splitAfter_cons_of_ne hx hps'⟩
        | cons r rs =>
          exact ⟨(x :: r) :: rs, p, splitAfter_cons_of_ne hx hps, splitAfter_cons_of_ne hx hps'⟩

/-- **Pieces are the pieces of what they consist of.** -/
theorem splitAfter_flatten_of_append {xs : List α} {ps qs : List (List α)}
    (h : splitAfter sep xs = ps ++ qs) :
    splitAfter sep ps.flatten = ps ∧ splitAfter sep qs.flatten = qs := by
  induction xs generalizing ps with
  | nil =>
    obtain ⟨rfl, rfl⟩ := List.append_eq_nil_iff.1 h.symm
    exact ⟨rfl, rfl⟩
  | cons x xs ih =>
    cases ps with
    | nil =>
      refine ⟨rfl, ?_⟩
      rw [List.nil_append] at h
      rw [← h, flatten_splitAfter]
    | cons p ps =>
      by_cases hx : x = sep
      · subst hx
        rw [splitAfter_cons_self, List.cons_append, List.cons.injEq] at h
        obtain ⟨rfl, h⟩ := h
        obtain ⟨hps, hqs⟩ := ih h
        exact ⟨by rw [List.flatten_cons, List.singleton_append, splitAfter_cons_self, hps], hqs⟩
      · cases hxs : splitAfter sep xs with
        | nil =>
          rw [splitAfter, if_neg hx, hxs, List.cons_append, List.cons.injEq] at h
          obtain ⟨rfl, h⟩ := h
          obtain ⟨rfl, rfl⟩ := List.append_eq_nil_iff.1 h.symm
          exact ⟨by simp [splitAfter, hx], rfl⟩
        | cons r rs =>
          rw [splitAfter_cons_of_ne hx hxs, List.cons_append, List.cons.injEq] at h
          obtain ⟨rfl, rfl⟩ := h
          obtain ⟨hps, hqs⟩ := @ih (r :: ps) hxs
          exact ⟨splitAfter_cons_of_ne hx hps, hqs⟩

end

end ScriptCell
