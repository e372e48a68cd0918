import ScriptCell.Line.Eval
import ScriptCell.Proofs.Text.Blank

/-!
# Lines and their words

`IsWord` says what a word of a line looks like and `Spaced` what lines consist of given words with
white space between and around them. A line is split into exactly the words it consists of
(`splitChars_of_spaced`), and the white space around a line makes no difference to its words
(`splitChars_trimChars`).
-/

namespace ScriptCell

/-! ## Words and lines -/

/-- A word of a line: a quoted word runs from a quote to the next one of its sort, a bare word does
not begin with a quote and holds no white space. -/
inductive IsWord : List Char → Prop
  | quoted {q : Char} {body : List Char} : isQuote q = true → q ∉ body → IsWord (q :: body ++ [q])
  | bare {c : Char} {cs : List Char} : isQuote c = false → (∀ d ∈ c :: cs, isBlank d = false) →
      IsWord (c :: cs)

/-- A list of characters at which a word can end: it is empty or begins with white space. -/
def Gapped (cs : List Char) : Prop := ∀ c ∈ cs.head?, isBlank c = true

instance (cs : List Char) : Decidable (Gapped cs) := Option.decidableForallMem cs.head?

/-- A line that consists of these words, with white space between and around them. -/
inductive Spaced : List (List Char) → List Char → Prop
  | nil {g : List Char} : AllBlank g → Spaced [] g
  | cons {g w cs : List Char} {ws : List (List Char)} : AllBlank g → IsWord w → Gapped cs →
      Spaced ws cs → Spaced (w :: ws) (g ++ w ++ cs)

/-- A quote is no white space. -/
theorem isBlank_of_isQuote {c : Char} (h : isQuote c = true) : isBlank c = false := by
  simp only [isQuote, Bool.or_eq_true, decide_eq_true_eq] at h
  rcases h with rfl | rfl <;> decide

/-- A word begins with a character that is no white space. -/
theorem IsWord.exists_cons {w : List Char} (h : IsWord w) :
    ∃ c cs, w = c :: cs ∧ isBlank c = false := by
  cases h with
  | quoted hq _ => exact ⟨_, _, rfl, isBlank_of_isQuote hq⟩
  | bare _ hb => exact ⟨_, _, rfl, hb _ (List.mem_cons_self ..)⟩

/-! ## Reading one word -/

namespace Reading

/-- Inside quotes everything up to the quote of the same sort is read. -/
theorem words_quoted {q : Char} {body : List Char} (hq : q ∉ body) (w cs : List Char) :
    (quoted q w).words (body ++ q :: cs) =
      (splitChars cs).map fun ws => (w.reverse ++ body ++ [q]) :: ws := by
  induction body generalizing w with
  | nil => simp [words, splitChars]
  | cons c body ih =>
    rw [List.mem_cons, not_or] at hq
    rw [List.cons_append, words, if_neg (Ne.symm hq.1), ih hq.2]
    simp

/-- A bare word is read up to the white space behind it. -/
theorem words_bare {body : List Char} (hb : ∀ c ∈ body, isBlank c = false) {cs : List Char}
    (hcs : Gapped cs) (w : List Char) :
    (bare w).words (body ++ cs) = (splitChars cs).map fun ws => (w.reverse ++ body) :: ws := by
  induction body generalizing w with
  | nil =>
    cases cs with
    | nil => simp [words, splitChars, Except.map]
    | cons c cs =>
      have hc : isBlank c = true := hcs c rfl
      rw [List.nil_append, words, if_pos hc, splitChars_cons_blank hc, List.append_nil, splitChars]
  | cons c body ih =>
    obtain ⟨hc, hb⟩ := List.forall_mem_cons.1 hb
    rw [List.cons_append, words, if_neg (by simp [hc]), ih hb]
    simp

end Reading

/-- Splitting takes a quoted word off the front, whatever stands behind it. -/
theorem splitChars_append_quoted {q : Char} {body : List Char} (hq : isQuote q = true)
    (hbody : q ∉ body) (cs : List Char) :
    splitChars (q :: body ++ [q] ++ cs) = (splitChars cs).map ((q :: body ++ [q]) :: ·) := by
  rw [splitChars, List.cons_append, List.cons_append, Reading.words,
    if_neg (by simp [isBlank_of_isQuote hq]), if_pos hq, List.append_assoc, List.singleton_append,
    Reading.words_quoted hbody]
  rfl

/-- Splitting takes a bare word off the front if white space or nothing stands behind it. -/
theorem splitChars_append_bare {c : Char} {w cs : List Char} (hc : isQuote c = false)
    (hw : ∀ d ∈ c :: w, isBlank d = false) (hcs : Gapped cs) :
    splitChars (c :: w ++ cs) = (splitChars cs).map ((c :: w) :: ·) := by
  obtain ⟨hcb, hw⟩ := List.forall_mem_cons.1 hw
  rw [splitChars, List.cons_append, Reading.words, if_neg (by simp [hcb]), if_neg (by simp [hc]),
    Reading.words_bare hw hcs]
  rfl

/-- **Splitting takes a word off the front.** -/
theorem splitChars_append_word {w cs : List Char} (hw : IsWord w) (hcs : Gapped cs) :
    splitChars (w ++ cs) = (splitChars cs).map (w :: ·) := by
  cases hw with
  | quoted hq hbody => exact splitChars_append_quoted hq hbody cs
  | bare hc hbody => exact splitChars_append_bare hc hbody hcs

/-! ## Whole lines -/

/-- White space in front of a line makes no difference to its words. -/
theorem splitChars_append_front {g : List Char} (hg : AllBlank g) (cs : List Char) :
    splitChars (g ++ cs) = splitChars cs := by
  induction g with
  | nil => rfl
  | cons c g ih =>
    obtain ⟨hc, hg⟩ := allBlank_cons.1 hg
    rw [List.cons_append, splitChars_cons_blank hc, ih hg]

/-- **A line is split into the words it consists of.** -/
theorem splitChars_of_spaced {ws : List (List Char)} {cs : List Char} (h : Spaced ws cs) :
    splitChars cs = .ok ws := by
  induction h with
  | @nil g hg =>
    rw [← List.append_nil g, splitChars_append_front hg, splitChars_nil]
  | cons hg hw hgap _ ih =>
    rw [List.append_assoc, splitChars_append_front hg, splitChars_append_word hw hgap, ih]
    rfl

namespace Reading

/-- A reader that is not inside quotes of white space, as none is that reads a line. -/
def Sound : Reading → Prop
  | .quoted q _ => isQuote q = true
  | .between | .bare _ => True

/-- White space that is left at the end makes no difference to a reader: it ends a bare word, as the
end of the line does, and closes no quote. -/
theorem words_blank {g : List Char} (hg : AllBlank g) {r : Reading} (hr : r.Sound) :
    r.words g = r.words [] := by
  have hsplit : splitChars g = splitChars [] := by
    rw [← List.append_nil g, splitChars_append_front hg]
  cases r with
  | between => exact hsplit
  | bare w =>
    have hgap : Gapped g := fun c hc => hg c (List.mem_of_mem_head? hc)
    have hword := words_bare (List.forall_mem_nil _) hgap w
    rw [List.nil_append, hsplit] at hword
    rw [hword]
    simp [words, Except.map]
  | quoted q w =>
    clear hsplit
    induction g generalizing w with
    | nil => rfl
    | cons c g ih =>
      obtain ⟨hc, hg⟩ := allBlank_cons.1 hg
      have hne : c ≠ q := by
        rintro rfl
        rw [isBlank_of_isQuote hr] at hc
        cases hc
      have hstep : (quoted q w).words (c :: g) = (quoted q (c :: w)).words g := if_neg hne
      rw [hstep]
      exact ih hg (c :: w) hr

/-- White space at the end makes no difference to a reader. -/
theorem words_append_blank {g : List Char} (hg : AllBlank g) (cs : List Char) {r : Reading}
    (hr : r.Sound) : r.words (cs ++ g) = r.words cs := by
  induction cs generalizing r with
  | nil => exact words_blank hg hr
  | cons c cs ih =>
    cases r with
    | between =>
      simp only [List.cons_append, words]
      split
      · exact ih (r := .between) trivial
      · split
        · next hq => exact ih (r := .quoted c [c]) hq
        · exact ih (r := .bare [c]) trivial
    | bare w =>
      simp only [List.cons_append, words]
      split
      · rw [ih (r := .between) trivial]
      · exact ih (r := .bare (c :: w)) trivial
    | quoted q w =>
      simp only [List.cons_append, words]
      split
      · rw [ih (r := .between) trivial]
      · exact ih (r := .quoted q (c :: w)) hr

end Reading

/-- White space at the end of a line makes no difference to its words. -/
theorem splitChars_append_back {g : List Char} (hg : AllBlank g) (cs : List Char) :
    splitChars (cs ++ g) = splitChars cs := Reading.words_append_blank hg cs trivial

/-- **Trimming a line makes no difference to its words.** -/
theorem splitChars_trimChars (cs : List Char) : splitChars (trimChars cs) = splitChars cs := by
  obtain ⟨g, g', hg, hg', hcs⟩ := exists_eq_trimChars cs
  conv => rhs; rw [hcs]
  rw [splitChars_append_back hg', splitChars_append_front hg]

theorem splitWords_trim (line : String) : splitWords (trim line) = splitWords line := by
  rw [splitWords, toList_trim, splitChars_trimChars, splitWords]

theorem map_ofList_map_toList (words : List String) :
    (words.map String.toList).map String.ofList = words := by
  rw [List.map_map]
  exact List.map_id'' (fun _ => String.ofList_toList) words

theorem map_toList_map_ofList (ws : List (List Char)) :
    (ws.map String.ofList).map String.toList = ws := by
  rw [List.map_map]
  exact List.map_id'' (fun _ => String.toList_ofList) ws

/-- Splitting a text is splitting its characters. -/
theorem splitWords_eq_ok_iff {line : String} {words : List String} :
    splitWords line = .ok words ↔ splitChars line.toList = .ok (words.map String.toList) := by
  unfold splitWords
  constructor
  · intro h
    cases hs : splitChars line.toList with
    | error q =>
      rw [hs] at h
      cases h
    | ok ws =>
      rw [hs] at h
      obtain rfl := Except.ok.inj h
      rw [map_toList_map_ofList]
  · intro h
    rw [h]
    exact congrArg Except.ok (map_ofList_map_toList words)

theorem splitWords_of_spaced {words : List String} {line : String}
    (h : Spaced (words.map String.toList) line.toList) : splitWords line = .ok words :=
  splitWords_eq_ok_iff.2 (splitChars_of_spaced h)

/-- A line of words, trimmed, begins with the first character of its first word. -/
theorem head?_trimChars_of_spaced {ws : List (List Char)} {cs : List Char} (h : Spaced ws cs) :
    (trimChars cs).head? = ws.head?.bind List.head? := by
  cases h with
  | nil hg =>
    rw [← List.append_nil cs, trimChars_append_front hg]
    rfl
  | @cons g w cs ws hg hword _ _ =>
    obtain ⟨c, w', rfl, hc⟩ := hword.exists_cons
    rw [List.append_assoc, trimChars_append_front hg, List.cons_append,
      trimChars_cons_of_not_blank hc]
    rfl

/-- The first character of some words. -/
def firstChar? (words : List String) : Option Char := words.head?.bind fun w => w.toList.head?

theorem head?_trim_of_spaced {words : List String} {line : String}
    (h : Spaced (words.map String.toList) line.toList) :
    (trim line).toList.head? = firstChar? words := by
  rw [toList_trim, head?_trimChars_of_spaced h, List.head?_map, Option.bind_map]
  rfl

end ScriptCell
