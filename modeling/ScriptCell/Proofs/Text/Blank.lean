import ScriptCell.Text.Blank

/-!
# Trimming

White space at either end of a text is not seen by trimming (`trimChars_append_front`,
`trimChars_append_back`), and trimming takes away nothing else (`exists_eq_trimChars`).
-/

namespace ScriptCell

/-- White space and nothing else. -/
def AllBlank (cs : List Char) : Prop := ∀ c ∈ cs, isBlank c = true

instance (cs : List Char) : Decidable (AllBlank cs) := List.decidableBAll _ cs

theorem allBlank_nil : AllBlank [] := nofun

theorem allBlank_cons {c : Char} {cs : List Char} :
    AllBlank (c :: cs) ↔ isBlank c = true ∧ AllBlank cs := List.forall_mem_cons

/-- The newline is white space. -/
theorem allBlank_newline : AllBlank ['\n'] := by
  intro c hc
  rw [List.mem_singleton.1 hc]
  decide

theorem trimFront_append {g : List Char} (hg : AllBlank g) (cs : List Char) :
    trimFront (g ++ cs) = trimFront cs := List.dropWhile_append_of_pos hg

theorem trimBack_append {g : List Char} (hg : AllBlank g) (cs : List Char) :
    trimBack (cs ++ g) = trimBack cs := by
  unfold trimBack
  rw [List.reverse_append, trimFront_append]
  intro c hc
  exact hg c (List.mem_reverse.1 hc)

/-- White space in front is not seen by trimming. -/
theorem trimChars_append_front {g : List Char} (hg : AllBlank g) (cs : List Char) :
    trimChars (g ++ cs) = trimChars cs := by
  rw [trimChars, trimFront_append hg, trimChars]

/-- White space at the end is not seen by trimming. -/
theorem trimChars_append_back {g : List Char} (hg : AllBlank g) (cs : List Char) :
    trimChars (cs ++ g) = trimChars cs := by
  unfold trimChars
  have happ : trimFront (cs ++ g) = if (trimFront cs).isEmpty then trimFront g
      else trimFront cs ++ g := List.dropWhile_append
  have hnil : trimFront g = [] := by rw [← List.append_nil g, trimFront_append hg]; rfl
  rw [happ]
  split
  · next h => rw [hnil, List.isEmpty_iff.1 h]
  · rw [trimBack_append hg]

/-- A character that is no white space stays in front. -/
theorem trimChars_cons_of_not_blank {c : Char} (hc : isBlank c = false) (cs : List Char) :
    trimChars (c :: cs) = c :: trimBack cs := by
  have hfront : trimFront (c :: cs) = c :: cs := List.dropWhile_cons_of_neg (by simp [hc])
  have happ : trimFront (cs.reverse ++ [c]) = if (trimFront cs.reverse).isEmpty then trimFront [c]
      else trimFront cs.reverse ++ [c] := List.dropWhile_append
  have hone : trimFront [c] = [c] := List.dropWhile_cons_of_neg (by simp [hc])
  rw [trimChars, hfront, trimBack, List.reverse_cons, happ, trimBack]
  split
  · next h => rw [hone, List.isEmpty_iff.1 h]; rfl
  · rw [List.reverse_append]; rfl

/-- Text without white space is not changed by trimming. -/
theorem trimChars_of_not_blank {cs : List Char} (h : ∀ c ∈ cs, isBlank c = false) :
    trimChars cs = cs := by
  have hfront {ds : List Char} (hd : ∀ c ∈ ds, isBlank c = false) : trimFront ds = ds := by
    cases ds with
    | nil => rfl
    | cons c ds => exact List.dropWhile_cons_of_neg (by simp [hd c (.head _)])
  rw [trimChars, hfront h, trimBack, hfront fun c hc => h c (List.mem_reverse.1 hc),
    List.reverse_reverse]

/-- The white space that is trimmed from the front. -/
theorem exists_eq_trimFront (cs : List Char) : ∃ g, AllBlank g ∧ cs = g ++ trimFront cs :=
  ⟨cs.takeWhile isBlank, List.all_eq_true.1 List.all_takeWhile,
    List.takeWhile_append_dropWhile.symm⟩

/-- **Only white space is trimmed.** -/
theorem exists_eq_trimChars (cs : List Char) :
    ∃ g g', AllBlank g ∧ AllBlank g' ∧ cs = g ++ trimChars cs ++ g' := by
  obtain ⟨g, hg, hfront⟩ := exists_eq_trimFront cs
  obtain ⟨g', hg', hback⟩ := exists_eq_trimFront (trimFront cs).reverse
  refine ⟨g, g'.reverse, hg, fun c hc => hg' c (List.mem_reverse.1 hc), ?_⟩
  have hrest : trimFront cs = trimChars cs ++ g'.reverse := by
    rw [trimChars, trimBack, ← List.reverse_append, ← hback, List.reverse_reverse]
  rw [List.append_assoc, ← hrest, ← hfront]

/-- Nothing is left by trimming of white space, and only of that. -/
theorem trimChars_eq_nil_iff {cs : List Char} : trimChars cs = [] ↔ AllBlank cs := by
  constructor
  · intro h
    obtain ⟨g, g', hg, hg', hcs⟩ := exists_eq_trimChars cs
    rw [hcs, h, List.append_nil]
    exact fun c hc => (List.mem_append.1 hc).elim (hg c) (hg' c)
  · intro h
    have htrim := trimChars_append_front h []
    rwa [List.append_nil, trimChars_nil] at htrim

/-- Trimming twice is trimming once. -/
theorem trimChars_trimChars (cs : List Char) : trimChars (trimChars cs) = trimChars cs := by
  obtain ⟨g, g', hg, hg', hcs⟩ := exists_eq_trimChars cs
  conv => rhs; rw [hcs]
  rw [trimChars_append_back hg', trimChars_append_front hg]

theorem trim_eq_trim_iff {s t : String} :
    trim s = trim t ↔ trimChars s.toList = trimChars t.toList := by
  rw [← String.toList_inj, toList_trim, toList_trim]

theorem trim_trim (s : String) : trim (trim s) = trim s := by
  rw [trim_eq_trim_iff, toList_trim, trimChars_trimChars]

end ScriptCell
