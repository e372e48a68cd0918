import ScriptCell.Proofs.Line.Words
import ScriptCell.Proofs.Result

/-!
# The grammar of lines

`Spelled` says which words a line has when it is read from left to right: white space is passed
over, a quote opens a word that runs to the next quote of its sort, and any other character opens a
word that runs to the next white space. A line is split into exactly these words
(`splitChars_eq_ok_iff`), and they are all well formed (`Spelled.isWord`).

So splitting a line at white space outside quotes splits its words
(`splitChars_append_blank_append`), and splitting inverts joining (`splitting_inverts_joining`).
-/

namespace ScriptCell

/-- A line with the words that are met when it is read from left to right. Behind a quoted word the
next one can follow at once, behind a bare word it cannot. -/
inductive Spelled : List (List Char) → List Char → Prop
  | nil : Spelled [] []
  | blank {c : Char} {ws : List (List Char)} {cs : List Char} : isBlank c = true → Spelled ws cs →
      Spelled ws (c :: cs)
  | quoted {q : Char} {body cs : List Char} {ws : List (List Char)} : isQuote q = true → q ∉ body →
      Spelled ws cs → Spelled ((q :: body ++ [q]) :: ws) (q :: body ++ [q] ++ cs)
  | bare {c : Char} {w cs : List Char} {ws : List (List Char)} : isQuote c = false →
      (∀ d ∈ c :: w, isBlank d = false) → Gapped cs → Spelled ws cs →
      Spelled ((c :: w) :: ws) (c :: w ++ cs)

/-! ## Splitting follows the grammar -/

/-- Splitting gives the words that are met. -/
theorem splitChars_of_spelled {ws : List (List Char)} {cs : List Char} (h : Spelled ws cs) :
    splitChars cs = .ok ws := by
  induction h with
  | nil => rfl
  | blank hc _ ih => rw [splitChars_cons_blank hc, ih]
  | quoted hq hbody _ ih =>
    rw [splitChars_append_quoted hq hbody, ih]
    rfl
  | bare hc hw hgap _ ih =>
    rw [splitChars_append_bare hc hw hgap, ih]
    rfl

namespace Reading

/-- A reader that has read the characters `v` of the word that it is in. -/
inductive Within : Reading → List Char → Prop
  | between : Within .between []
  | bare {c : Char} {w : List Char} : isQuote c = false → (∀ d ∈ c :: w, isBlank d = false) →
      Within (.bare (c :: w).reverse) (c :: w)
  | quoted {q : Char} {body : List Char} : isQuote q = true → q ∉ body →
      Within (.quoted q (q :: body).reverse) (q :: body)

/-- One more character of a bare word. -/
theorem Within.bare_concat {c d : Char} {w : List Char} (hc : isQuote c = false)
    (hw : ∀ d ∈ c :: w, isBlank d = false) (hd : isBlank d = false) :
    Within (.bare (d :: (c :: w).reverse)) (c :: w ++ [d]) := by
  have hall : ∀ x ∈ c :: (w ++ [d]), isBlank x = false := by
    intro x hx
    rw [← List.cons_append, List.mem_append, List.mem_singleton] at hx
    rcases hx with hx | rfl
    · exact hw x hx
    · exact hd
  have hbare := Within.bare hc hall
  rwa [← List.cons_append, List.reverse_append] at hbare

/-- One more character of a quoted word. -/
theorem Within.quoted_concat {q d : Char} {body : List Char} (hq : isQuote q = true)
    (hbody : q ∉ body) (hd : d ≠ q) :
    Within (.quoted q (d :: (q :: body).reverse)) (q :: body ++ [d]) := by
  have hall : q ∉ body ++ [d] := by
    rw [List.mem_append, List.mem_singleton]
    rintro (h | rfl)
    · exact hbody h
    · exact hd rfl
  have hquoted := Within.quoted hq hall
  rwa [← List.cons_append, List.reverse_append] at hquoted

/-- **A reader meets the words of the grammar**, the word that it is in taken from its beginning. -/
theorem spelled_of_words {r : Reading} {v cs : List Char} {ws : List (List Char)} (hr : r.Within v)
    (h : r.words cs = .ok ws) : Spelled ws (v ++ cs) := by
  induction cs generalizing r v ws with
  | nil =>
    cases hr with
    | between =>
      obtain rfl := Except.ok.inj h
      exact .nil
    | bare hc hw =>
      obtain rfl := Except.ok.inj h
      rw [List.reverse_reverse]
      exact .bare hc hw nofun .nil
    | quoted => cases h
  | cons d cs ih =>
    cases hr with
    | between =>
      rw [words] at h
      split at h
      · next hd => exact .blank hd (ih .between h)
      · next hd =>
        have hd : isBlank d = false := by simpa using hd
        split at h
        · next hq => exact ih (.quoted hq List.not_mem_nil) h
        · next hq =>
          exact ih (.bare (by simpa using hq) (List.forall_mem_singleton.2 hd)) h
    | @bare c w hc hw =>
      rw [words] at h
      split at h
      · next hd =>
        obtain ⟨ws', hws', rfl⟩ := exists_of_map_eq_ok h
        rw [List.reverse_reverse]
        exact .bare hc hw (fun x hx => Option.some.inj hx ▸ hd) (.blank hd (ih .between hws'))
      · next hd =>
        rw [List.append_cons]
        exact ih (.bare_concat hc hw (by simpa using hd)) h
    | @quoted q body hq hbody =>
      rw [words] at h
      split at h
      · next hd =>
        obtain ⟨ws', hws', rfl⟩ := exists_of_map_eq_ok h
        subst hd
        have hquoted := Spelled.quoted hq hbody (ih .between hws')
        rw [List.append_assoc] at hquoted
        rw [List.reverse_cons, List.reverse_reverse]
        exact hquoted
      · next hd =>
        rw [List.append_cons]
        exact ih (.quoted_concat hq hbody hd) h

end Reading

/-- **A line is split into the words that are met in it**, and into no others. -/
theorem splitChars_eq_ok_iff {cs : List Char} {ws : List (List Char)} :
    splitChars cs = .ok ws ↔ Spelled ws cs :=
  ⟨Reading.spelled_of_words .between, splitChars_of_spelled⟩

/-- All words of a line are well formed. -/
theorem Spelled.isWord {ws : List (List Char)} {cs : List Char} (h : Spelled ws cs) :
    ∀ w ∈ ws, IsWord w := by
  induction h with
  | nil => exact List.forall_mem_nil _
  | blank _ _ ih => exact ih
  | quoted hq hbody _ ih => exact List.forall_mem_cons.2 ⟨.quoted hq hbody, ih⟩
  | bare hc hw _ _ ih => exact List.forall_mem_cons.2 ⟨.bare hc hw, ih⟩

/-! ## Cutting and joining lines -/

/-- What stands behind a gap can be exchanged for anything behind more white space. -/
theorem Gapped.append_blank {cs : List Char} {c : Char} (h : Gapped cs) (hc : isBlank c = true)
    (ds : List Char) : Gapped (cs ++ c :: ds) := by
  cases cs with
  | nil => exact fun x hx => Option.some.inj hx ▸ hc
  | cons d cs => exact h

/-- **A line can be cut at white space** if what stands before it splits: the words are those of the
two sides, and the failure is that of the other side. -/
theorem splitChars_append_blank_append {ws : List (List Char)} {cs : List Char}
    (h : splitChars cs = .ok ws) {c : Char} (hc : isBlank c = true) (ds : List Char) :
    splitChars (cs ++ c :: ds) = (splitChars ds).map (ws ++ ·) := by
  induction splitChars_eq_ok_iff.1 h with
  | nil =>
    rw [List.nil_append, splitChars_cons_blank hc]
    cases splitChars ds <;> rfl
  | blank hd hs ih =>
    rw [List.cons_append, splitChars_cons_blank hd, ih (splitChars_of_spelled hs)]
  | quoted hq hbody hs ih =>
    rw [List.append_assoc, splitChars_append_quoted hq hbody, ih (splitChars_of_spelled hs),
      map_map_result]
    rfl
  | bare hb hw hgap hs ih =>
    rw [List.append_assoc, splitChars_append_bare hb hw (hgap.append_blank hc ds),
      ih (splitChars_of_spelled hs), map_map_result]
    rfl

/-- A space in front of a line of words. -/
theorem Spaced.cons_blank {ws : List (List Char)} {cs : List Char} (h : Spaced ws cs) {c : Char}
    (hc : isBlank c = true) : Spaced ws (c :: cs) := by
  cases h with
  | nil hg => exact .nil (allBlank_cons.2 ⟨hc, hg⟩)
  | cons hg hw hgap hs => exact .cons (allBlank_cons.2 ⟨hc, hg⟩) hw hgap hs

/-- A word and white space in front of a line of words. -/
theorem Spaced.cons_word {w cs : List Char} {ws : List (List Char)} (hw : IsWord w) {c : Char}
    (hc : isBlank c = true) (h : Spaced ws cs) : Spaced (w :: ws) (w ++ c :: cs) :=
  .cons allBlank_nil hw (fun _ hx => Option.some.inj hx ▸ hc) (h.cons_blank hc)

/-- A word alone is a line. -/
theorem Spaced.word {w : List Char} (hw : IsWord w) : Spaced [w] w := by
  have h : Spaced [w] ([] ++ w ++ []) := .cons allBlank_nil hw nofun (.nil allBlank_nil)
  rwa [List.append_nil] at h

/-- Words with a space between them are a line of these words. -/
theorem spaced_intercalate {ws : List (List Char)} (h : ∀ w ∈ ws, IsWord w) :
    Spaced ws ([' '].intercalate ws) := by
  induction ws with
  | nil => exact .nil allBlank_nil
  | cons w ws ih =>
    obtain ⟨hw, hws⟩ := List.forall_mem_cons.1 h
    cases ws with
    | nil =>
      rw [List.intercalate_singleton]
      exact .word hw
    | cons w' ws =>
      rw [List.intercalate_cons_cons, List.append_assoc]
      exact .cons_word hw (by decide : isBlank ' ' = true) (ih hws)

/-- **Splitting inverts joining.** Split a line at white space whose front splits: the words are
those of the front and then those of the back, and a failure is that of the back. So a line of
well-formed words with any white space between and around them has just these words; the words of a
line, joined by single spaces, are the words of what they are joined to; and trimming a line makes
no difference to its words or to its failure. -/
theorem splitting_inverts_joining :
    (∀ (front back : String) (c : Char) (words : List String), splitWords front = .ok words →
      isBlank c = true →
      splitWords (front ++ String.singleton c ++ back) = (splitWords back).map (words ++ ·)) ∧
    (∀ (words : List String) (line : String), Spaced (words.map String.toList) line.toList →
      splitWords line = .ok words) ∧
    (∀ (line : String) (words : List String), splitWords line = .ok words →
      splitWords (" ".intercalate words) = .ok words) ∧
    ∀ line : String, splitWords (trim line) = splitWords line := by
  refine ⟨?_, fun _ _ => splitWords_of_spaced, ?_, splitWords_trim⟩
  · intro front back c words hfront hc
    rw [splitWords_eq_ok_iff] at hfront
    have hline : (front ++ String.singleton c ++ back).toList =
        front.toList ++ c :: back.toList := by
      simp
    rw [splitWords, hline, splitChars_append_blank_append hfront hc, splitWords]
    cases splitChars back.toList with
    | error q => rfl
    | ok ws => simp [Except.map]
  · intro line words hline
    rw [splitWords_eq_ok_iff, splitChars_eq_ok_iff] at hline
    refine splitWords_of_spaced ?_
    rw [String.toList_intercalate]
    exact spaced_intercalate hline.isWord

/-- Two words that touch: a line that ends in them can be continued behind a wide space, here by a
quote that is never closed, and they can be joined again. -/
theorem splitting_touching_words :
    splitWords "'a b'c" = .ok ["'a b'", "c"] ∧ isBlank '\u3000' = true ∧
    splitWords ("'a b'c" ++ String.singleton '\u3000' ++ "\"d") = .error (.unterminated '"') ∧
    Spaced (["'a b'", "c"].map String.toList) "\t'a b' \nc".toList ∧
    splitWords "\t'a b' \nc" = .ok ["'a b'", "c"] ∧
    splitWords (" ".intercalate ["'a b'", "c"]) = .ok ["'a b'", "c"] := by
  obtain ⟨hcut, hspaced, hjoin, -⟩ := splitting_inverts_joining
  have hwords : splitWords "'a b'c" = .ok ["'a b'", "c"] := by rfl
  have hblank : isBlank '\u3000' = true := by decide
  have hline : Spaced (["'a b'", "c"].map String.toList) "\t'a b' \nc".toList := by
    have hsplit : "\t'a b' \nc".toList = '\t' :: ("'a b'".toList ++ ' ' :: '\n' :: "c".toList) := by
      decide
    have hquoted : IsWord "'a b'".toList :=
      .quoted (by decide : isQuote '\'' = true) (by decide : '\'' ∉ "a b".toList)
    have hbare : IsWord "c".toList := .bare (by decide) (List.forall_mem_singleton.2 (by decide))
    rw [hsplit]
    refine .cons_blank (.cons_word hquoted (by decide) (.cons_blank (.word hbare) ?_)) ?_ <;> decide
  refine ⟨hwords, hblank, ?_, hline, hspaced _ _ hline, hjoin _ _ hwords⟩
  have hback : splitWords "\"d" = .error (.unterminated '"') := by rfl
  rw [hcut _ _ _ _ hwords hblank, hback]
  rfl

end ScriptCell
