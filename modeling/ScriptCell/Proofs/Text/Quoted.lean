import Mathlib.Data.List.Basic
import ScriptCell.Text.Quoted

/-!
# Quoted text says what it quotes

A character inside quoted text stands for itself, has a letter behind a backslash, or is given by
its code point (`Escape`). No such form begins another one (`Escape.inj`), so quoted text comes from
one text only (`quote_injective`). A text of plain characters is quoted as it is, and no other one
(`flatMap_escapeChar_eq_self_iff`). Quoted text holds no control sequences.
-/

namespace ScriptCell

/-! ## Cutting lists and digits -/

/-- A list can be cut at the first occurrence of an element in one way only. -/
theorem append_cons_inj {α : Type} {x : α} {as bs cs ds : List α} (ha : x ∉ as) (hb : x ∉ bs)
    (h : as ++ x :: cs = bs ++ x :: ds) : as = bs ∧ cs = ds := by
  induction as generalizing bs with
  | nil =>
    cases bs with
    | nil => exact ⟨rfl, (List.cons.inj h).2⟩
    | cons b bs =>
      obtain ⟨rfl, -⟩ := List.cons.inj h
      exact absurd (.head _) hb
  | cons a as ih =>
    cases bs with
    | nil =>
      obtain ⟨rfl, -⟩ := List.cons.inj h
      exact absurd (.head _) ha
    | cons b bs =>
      obtain ⟨rfl, htail⟩ := List.cons.inj h
      obtain ⟨rfl, rfl⟩ := ih (fun hx => ha (.tail _ hx)) (fun hx => hb (.tail _ hx)) htail
      exact ⟨rfl, rfl⟩

/-- What holds of every hexadecimal digit holds of every character of a hexadecimal number. -/
theorem forall_mem_toDigits {p : Char → Prop} (hp : ∀ k < 16, p k.digitChar) (n : Nat) :
    ∀ c ∈ Nat.toDigits 16 n, p c := by
  induction n using Nat.strongRecOn with
  | ind n ih =>
    rw [Nat.toDigits_eq_if (by decide)]
    split
    · next hn => exact List.forall_mem_singleton.2 (hp n hn)
    · next hn =>
      rw [List.forall_mem_append, List.forall_mem_singleton]
      exact ⟨ih (n / 16) (by omega), hp _ (Nat.mod_lt n (by decide))⟩

/-- Two numbers with the same hexadecimal digits are the same number. -/
theorem toDigits_injective {m n : Nat} (h : Nat.toDigits 16 m = Nat.toDigits 16 n) : m = n := by
  have hdigit : ∀ k < 16, ∀ l < 16, Nat.digitChar k = Nat.digitChar l → k = l := by decide
  induction m using Nat.strongRecOn generalizing n with
  | ind m ih =>
    rw [Nat.toDigits_eq_if (by decide), Nat.toDigits_eq_if (n := n) (by decide)] at h
    split at h <;> split at h
    · next hm hn => exact hdigit m hm n hn (List.singleton_inj.1 h)
    · exact absurd (List.append_eq_singleton_iff.1 h.symm) (by simp [Nat.toDigits_ne_nil])
    · exact absurd (List.append_eq_singleton_iff.1 h) (by simp [Nat.toDigits_ne_nil])
    · next hm hn =>
      obtain ⟨hfront, hlast⟩ := List.append_inj' h rfl
      have hdiv := ih (m / 16) (by omega) hfront
      have hmod := hdigit _ (Nat.mod_lt m (by decide)) _ (Nat.mod_lt n (by decide))
        (List.singleton_inj.1 hlast)
      omega

/-! ## One character -/

/-- The characters that have a letter of their own behind a backslash. -/
def escapeLetters : List (Char × Char) :=
  [('"', '"'), ('\\', '\\'), ('\n', 'n'), ('\r', 'r'), ('\t', 't'), ('\x00', '0')]

/-- The ways in which a character is written inside quoted text. -/
inductive Escape : Char → List Char → Prop
  | plain {c : Char} : c ≠ '\\' → needsHexEscape c = false → Escape c [c]
  | letter {c l : Char} : (c, l) ∈ escapeLetters → Escape c ['\\', l]
  | hex {c : Char} : Escape c (hexEscape c)

/-- Every character is written in one of these ways. -/
theorem escape_escapeChar (c : Char) : Escape c (escapeChar c) := by
  have hletters : ∀ p ∈ escapeLetters, Escape p.1 ['\\', p.2] := fun p hp => .letter hp
  unfold escapeChar
  split
  · next h => exact h ▸ hletters ('"', '"') (by decide)
  split
  · next h => exact h ▸ hletters ('\\', '\\') (by decide)
  · next hb =>
    split
    · next h => exact h ▸ hletters ('\n', 'n') (by decide)
    split
    · next h => exact h ▸ hletters ('\r', 'r') (by decide)
    split
    · next h => exact h ▸ hletters ('\t', 't') (by decide)
    split
    · next h => exact h ▸ hletters ('\x00', '0') (by decide)
    split
    · exact .hex
    · next hx => exact .plain hb (by simpa using hx)

namespace Escape

variable {c d : Char} {w v cs ds : List Char}

/-- **No way to write a character begins another one.** -/
theorem inj (hc : Escape c w) (hd : Escape d v) (h : w ++ cs = v ++ ds) : c = d ∧ cs = ds := by
  have hletters : ∀ p ∈ escapeLetters, p.2 ≠ 'u' ∧ ∀ q ∈ escapeLetters, p.2 = q.2 → p.1 = q.1 := by
    decide
  cases hc with
  | plain hb _ =>
    cases hd with
    | plain _ _ => exact List.cons.inj h
    | letter _ => exact absurd (List.cons.inj h).1 hb
    | hex => exact absurd (List.cons.inj h).1 hb
  | letter hl =>
    cases hd with
    | plain hb _ => exact absurd (List.cons.inj h).1.symm hb
    | letter hl' =>
      obtain ⟨hletter, htail⟩ := List.cons.inj (List.cons.inj h).2
      exact ⟨(hletters _ hl).2 _ hl' hletter, htail⟩
    | hex => exact absurd (List.cons.inj (List.cons.inj h).2).1 (hletters _ hl).1
  | hex =>
    cases hd with
    | plain hb _ => exact absurd (List.cons.inj h).1.symm hb
    | letter hl => exact absurd (List.cons.inj (List.cons.inj h).2).1.symm (hletters _ hl).1
    | hex =>
      have hbrace (n : Nat) : '\x7d' ∉ Nat.toDigits 16 n := fun hmem =>
        forall_mem_toDigits (p := (· ≠ '\x7d')) (by decide) n _ hmem rfl
      rw [hexEscape, hexEscape, List.append_assoc, List.append_assoc, List.append_assoc,
        List.append_assoc] at h
      obtain ⟨hdigits, htail⟩ := append_cons_inj (hbrace _) (hbrace _) (List.append_cancel_left h)
      exact ⟨Char.toNat_inj.1 (toDigits_injective hdigits), htail⟩

theorem ne_nil (hc : Escape c w) : w ≠ [] := by
  cases hc <;> exact List.cons_ne_nil _ _

/-- The character that begins control sequences is never written. -/
theorem escape_notMem (hc : Escape c w) : '\x1b' ∉ w := by
  cases hc with
  | plain _ hx =>
    rw [List.mem_singleton]
    rintro rfl
    exact absurd hx (by decide +kernel)
  | letter hl =>
    have hletters : ∀ p ∈ escapeLetters, '\x1b' ∉ ['\\', p.2] := by decide
    exact hletters _ hl
  | hex =>
    have hdigits : '\x1b' ∉ Nat.toDigits 16 c.toNat := fun hmem =>
      forall_mem_toDigits (p := (· ≠ '\x1b')) (by decide) _ _ hmem rfl
    simp [hexEscape, hdigits]

end Escape

/-! ## Whole texts -/

theorem flatMap_escapeChar_injective {cs ds : List Char}
    (h : cs.flatMap escapeChar = ds.flatMap escapeChar) : cs = ds := by
  induction cs generalizing ds with
  | nil =>
    cases ds with
    | nil => rfl
    | cons d ds =>
      rw [List.flatMap_cons] at h
      exact absurd (List.append_eq_nil_iff.1 h.symm).1 (escape_escapeChar d).ne_nil
  | cons c cs ih =>
    cases ds with
    | nil =>
      rw [List.flatMap_cons] at h
      exact absurd (List.append_eq_nil_iff.1 h).1 (escape_escapeChar c).ne_nil
    | cons d ds =>
      rw [List.flatMap_cons, List.flatMap_cons] at h
      obtain ⟨rfl, htail⟩ := (escape_escapeChar c).inj (escape_escapeChar d) h
      rw [ih htail]

/-- Whatever does not stand for itself is written with more characters than one. -/
theorem one_lt_length_escapeChar {c : Char} (h : isPlain c = false) :
    1 < (escapeChar c).length := by
  unfold escapeChar
  split
  · decide
  split
  · decide
  split
  · decide
  split
  · decide
  split
  · decide
  split
  · decide
  split
  · simp [hexEscape]
  · next hq hb _ _ _ _ hx => simp [isPlain, hq, hb, hx] at h

theorem length_le_flatMap_escapeChar (cs : List Char) :
    cs.length ≤ (cs.flatMap escapeChar).length := by
  induction cs with
  | nil => exact Nat.le_refl _
  | cons c cs ih =>
    have hc := List.length_pos_of_ne_nil (escape_escapeChar c).ne_nil
    rw [List.flatMap_cons, List.length_append, List.length_cons]
    omega

/-- **Characters are quoted as they are** exactly if all of them are plain. -/
theorem flatMap_escapeChar_eq_self_iff {cs : List Char} :
    cs.flatMap escapeChar = cs ↔ ∀ c ∈ cs, isPlain c = true := by
  induction cs with
  | nil => simp
  | cons c cs ih =>
    rw [List.flatMap_cons, List.forall_mem_cons, ← ih]
    cases hc : isPlain c with
    | true =>
      rw [escapeChar_of_plain hc, List.singleton_append, List.cons_inj_right]
      exact (and_iff_right rfl).symm
    -- what is written for `c` may begin with `c` itself, so the whole texts are told apart by their
    -- lengths
    | false =>
      refine iff_of_false (fun h => ?_) nofun
      have hlength := congrArg List.length h
      have hhead := one_lt_length_escapeChar hc
      have htail := length_le_flatMap_escapeChar cs
      rw [List.length_append, List.length_cons] at hlength
      omega

/-- **Quoted text comes from one text only.** -/
theorem quote_injective {s t : String} (h : quote s = quote t) : s = t := by
  have hchars := congrArg String.toList h
  rw [toList_quote, toList_quote] at hchars
  have hbody := List.append_cancel_right hchars
  exact String.toList_inj.1 (flatMap_escapeChar_injective (List.cons.inj hbody).2)

/-- Quoted text holds no control sequences. -/
theorem escape_notMem_quote (s : String) : '\x1b' ∉ (quote s).toList := by
  rw [toList_quote, List.mem_append, List.mem_cons, List.mem_flatMap]
  rintro ((h | ⟨c, -, h⟩) | h)
  · exact absurd h (by decide)
  · exact (escape_escapeChar c).escape_notMem h
  · exact absurd h (by decide)

end ScriptCell
