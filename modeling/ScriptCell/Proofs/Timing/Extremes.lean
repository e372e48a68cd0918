import Mathlib.Data.List.Induction
import Mathlib.Order.Bounds.Basic
import ScriptCell.Proofs.Binary.Extremes
import ScriptCell.Timing.Summary

/-!
# The extremes of samples

The rank of the least sample is the least one of the ranks of the numbers among the samples, with
that of infinity put in (`Timing.isLeast_rank_leastOf`); since infinity is above all numbers, it
only shows if there are none. So the least sample depends on which numbers there are, not on their
order, on how often they occur or on NaNs (`Timing.numEq_leastOf`). The greatest sample is the least
one of the negated samples, negated (`Timing.greatestOf_eq_negate`).
-/

namespace ScriptCell.Timing

open Binary (infinity)

variable {xs ys : List Double} {x : Double}

/-- The ranks of the numbers among the samples. -/
def ranks (xs : List Double) : Set Int := {r | ∃ x ∈ xs, x.isNaN = false ∧ x.rank = r}

/-! ## The least sample -/

theorem leastOf_concat (xs : List Double) (x : Double) :
    leastOf (xs ++ [x]) = (leastOf xs).min x := by
  rw [leastOf, List.foldl_append]
  rfl

/-- The least sample is a number, whatever the samples are. -/
@[simp] theorem isNaN_leastOf (xs : List Double) : (leastOf xs).isNaN = false := by
  induction xs using List.reverseRecOn with
  | nil => rfl
  | append_singleton xs x ih => rw [leastOf_concat, Binary.isNaN_min, ih, Bool.false_and]

/-- **The least sample of all is the smaller one of two parts.** -/
theorem leastOf_append (xs ys : List Double) :
    leastOf (xs ++ ys) = (leastOf xs).min (leastOf ys) := by
  have hseed := Binary.min_infinity (isNaN_leastOf xs)
  rw [leastOf, List.foldl_append, ← leastOf]
  conv_lhs => rw [← hseed]
  exact List.foldl_assoc

theorem ranks_concat_of_isNaN (hx : x.isNaN = true) : ranks (xs ++ [x]) = ranks xs := by
  ext r
  simp [ranks, or_and_right, exists_or, hx]

theorem ranks_concat_of_number (hx : x.isNaN = false) :
    ranks (xs ++ [x]) = insert x.rank (ranks xs) := by
  ext r
  simp [ranks, or_and_right, exists_or, hx, or_comm, eq_comm (a := x.rank)]

/-- **The rank of the least sample is the least rank**, that of infinity put in. -/
theorem isLeast_rank_leastOf (xs : List Double) :
    IsLeast (insert (infinity .double false).rank (ranks xs)) (leastOf xs).rank := by
  induction xs using List.reverseRecOn with
  | nil => simp [ranks, leastOf]
  | append_singleton xs x ih =>
    rw [leastOf_concat]
    cases hx : x.isNaN with
    | true => rwa [Binary.min_of_isNaN_right (isNaN_leastOf xs) hx, ranks_concat_of_isNaN hx]
    | false =>
      rw [Binary.rank_min (isNaN_leastOf xs) hx, ranks_concat_of_number hx, Set.insert_comm,
        Int.min_comm]
      exact ih.insert x.rank

/-- The least sample is at most each number among the samples. -/
theorem numLe_leastOf (hmem : x ∈ xs) (hx : x.isNaN = false) : (leastOf xs).numLe x = true := by
  have hle := (isLeast_rank_leastOf xs).2 (.inr ⟨x, hmem, hx, rfl⟩)
  exact Binary.numLe_iff_rank.2 ⟨isNaN_leastOf xs, hx, hle⟩

/-- If there is a number among the samples, the least sample is one of them. -/
theorem exists_numEq_leastOf (h : ∃ x ∈ xs, x.isNaN = false) :
    ∃ x ∈ xs, (leastOf xs).numEq x = true := by
  obtain ⟨x, hmem, hx⟩ := h
  rcases (isLeast_rank_leastOf xs).1 with hseed | ⟨y, hy, hnan, hrank⟩
  · -- the least rank is that of infinity only if all numbers are infinity
    have hle := (Binary.numLe_iff_rank.1 (numLe_leastOf hmem hx)).2.2
    have hge := Binary.rank_le_infinity hx
    exact ⟨x, hmem, Binary.numEq_iff_rank.2 ⟨isNaN_leastOf xs, hx, by omega⟩⟩
  · exact ⟨y, hy, Binary.numEq_iff_rank.2 ⟨isNaN_leastOf xs, hnan, hrank.symm⟩⟩

/-- Without a number, the least sample is infinity. -/
theorem leastOf_of_forall_isNaN (h : ∀ x ∈ xs, x.isNaN = true) :
    leastOf xs = infinity .double false := by
  rcases (isLeast_rank_leastOf xs).1 with hseed | ⟨x, hmem, hx, -⟩
  · rcases Binary.rank_eq_iff.1 hseed with heq | ⟨-, hzero⟩
    · exact heq
    · cases hzero
  · exact absurd ((h x hmem).symm.trans hx) (by decide)

/-- **The least sample depends on the numbers among the samples only**, up to the sign of a zero. -/
theorem numEq_leastOf (h : ∀ x, x.isNaN = false → (x ∈ xs ↔ x ∈ ys)) :
    (leastOf xs).numEq (leastOf ys) = true := by
  have hranks : ranks xs = ranks ys := by
    ext r
    exact exists_congr fun x => and_congr_left fun hx => h x hx.1
  have hx := isLeast_rank_leastOf xs
  rw [hranks] at hx
  exact Binary.numEq_iff_rank.2
    ⟨isNaN_leastOf xs, isNaN_leastOf ys, hx.unique (isLeast_rank_leastOf ys)⟩

/-! ## The greatest sample -/

theorem greatestOf_concat (xs : List Double) (x : Double) :
    greatestOf (xs ++ [x]) = (greatestOf xs).max x := by
  rw [greatestOf, List.foldl_append]
  rfl

/-- **The greatest sample is the least one of what is negated.** -/
theorem greatestOf_eq_negate (xs : List Double) :
    greatestOf xs = (leastOf (xs.map Binary.negate)).negate := by
  induction xs using List.reverseRecOn with
  | nil => rfl
  | append_singleton xs x ih =>
    rw [greatestOf_concat, ih, List.map_append, List.map_singleton, leastOf_concat,
      Binary.max_eq_negate_min, Binary.negate_negate]

@[simp] theorem isNaN_greatestOf (xs : List Double) : (greatestOf xs).isNaN = false := by
  rw [greatestOf_eq_negate, Binary.isNaN_negate, isNaN_leastOf]

/-- The greatest sample of all is the larger one of two parts. -/
theorem greatestOf_append (xs ys : List Double) :
    greatestOf (xs ++ ys) = (greatestOf xs).max (greatestOf ys) := by
  simp only [greatestOf_eq_negate, List.map_append, leastOf_append, Binary.max_eq_negate_min,
    Binary.negate_negate]

/-- The greatest sample is at least each number among the samples. -/
theorem numLe_greatestOf (hmem : x ∈ xs) (hx : x.isNaN = false) :
    x.numLe (greatestOf xs) = true := by
  have h := numLe_leastOf (List.mem_map_of_mem hmem) ((Binary.isNaN_negate x).trans hx)
  rwa [greatestOf_eq_negate, ← Binary.numLe_negate, Binary.negate_negate]

/-- If there is a number among the samples, the greatest sample is one of them. -/
theorem exists_numEq_greatestOf (h : ∃ x ∈ xs, x.isNaN = false) :
    ∃ x ∈ xs, (greatestOf xs).numEq x = true := by
  obtain ⟨x, hmem, hx⟩ := h
  obtain ⟨y, hy, heq⟩ := exists_numEq_leastOf ⟨x.negate, List.mem_map_of_mem hmem, hx⟩
  obtain ⟨z, hz, rfl⟩ := List.mem_map.1 hy
  refine ⟨z, hz, ?_⟩
  rwa [greatestOf_eq_negate, ← Binary.numEq_negate, Binary.negate_negate]

/-- Without a number, the greatest sample is minus infinity. -/
theorem greatestOf_of_forall_isNaN (h : ∀ x ∈ xs, x.isNaN = true) :
    greatestOf xs = infinity .double true := by
  rw [greatestOf_eq_negate, leastOf_of_forall_isNaN, Binary.negate_infinity, Bool.not_false]
  rintro _ hmem
  obtain ⟨x, hx, rfl⟩ := List.mem_map.1 hmem
  exact h x hx

/-- The greatest sample depends on the numbers among the samples only, up to the sign of a zero. -/
theorem numEq_greatestOf (h : ∀ x, x.isNaN = false → (x ∈ xs ↔ x ∈ ys)) :
    (greatestOf xs).numEq (greatestOf ys) = true := by
  rw [greatestOf_eq_negate, greatestOf_eq_negate, Binary.numEq_negate]
  refine numEq_leastOf fun x hx => ?_
  have hmem (zs : List Double) : x ∈ zs.map Binary.negate ↔ x.negate ∈ zs := by
    rw [List.mem_map]
    exact ⟨fun ⟨y, hy, hyx⟩ => by rwa [← hyx, Binary.negate_negate],
      fun hy => ⟨_, hy, Binary.negate_negate x⟩⟩
  rw [hmem, hmem]
  exact h x.negate hx

/-- The least sample is at most the greatest one if there is a number among the samples. -/
theorem numLe_leastOf_greatestOf (h : ∃ x ∈ xs, x.isNaN = false) :
    (leastOf xs).numLe (greatestOf xs) = true := by
  obtain ⟨x, hmem, hx⟩ := h
  have hlow := (Binary.numLe_iff_rank.1 (numLe_leastOf hmem hx)).2.2
  have hhigh := (Binary.numLe_iff_rank.1 (numLe_greatestOf hmem hx)).2.2
  exact Binary.numLe_iff_rank.2 ⟨isNaN_leastOf xs, isNaN_greatestOf xs, hlow.trans hhigh⟩

/-! ## Summaries -/

/-- **The extremes of samples.** The least and the greatest sample of a summary are never NaNs.

If there is a number among the samples, infinities counted as numbers, both are numerically equal to
a sample, no number among the samples is below the one or above the other, and the least one is at
most the greatest one. If there is none, they are infinity and minus infinity.

Samples with the same numbers among them, in whatever order, however often and with whatever NaNs
between them, have numerically equal extremes. The extremes of two lists of samples put together are
the smaller one of their least and the larger one of their greatest samples. -/
theorem extremes_of_samples (xs : List Double) :
    ((Summary.ofSamples xs).least.isNaN = false ∧ (Summary.ofSamples xs).greatest.isNaN = false) ∧
    ((∃ x ∈ xs, x.isNaN = false) →
      (∃ x ∈ xs, (Summary.ofSamples xs).least.numEq x = true) ∧
      (∃ x ∈ xs, (Summary.ofSamples xs).greatest.numEq x = true) ∧
      (∀ x ∈ xs, x.isNaN = false → (Summary.ofSamples xs).least.numLe x = true ∧
        x.numLe (Summary.ofSamples xs).greatest = true) ∧
      (Summary.ofSamples xs).least.numLe (Summary.ofSamples xs).greatest = true) ∧
    ((¬ ∃ x ∈ xs, x.isNaN = false) → (Summary.ofSamples xs).least = infinity .double false ∧
      (Summary.ofSamples xs).greatest = infinity .double true) ∧
    (∀ ys : List Double, (∀ x : Double, x.isNaN = false → (x ∈ xs ↔ x ∈ ys)) →
      (Summary.ofSamples xs).least.numEq (Summary.ofSamples ys).least = true ∧
      (Summary.ofSamples xs).greatest.numEq (Summary.ofSamples ys).greatest = true) ∧
    (∀ ys, (Summary.ofSamples (xs ++ ys)).least =
        (Summary.ofSamples xs).least.min (Summary.ofSamples ys).least ∧
      (Summary.ofSamples (xs ++ ys)).greatest =
        (Summary.ofSamples xs).greatest.max (Summary.ofSamples ys).greatest) := by
  refine ⟨⟨isNaN_leastOf xs, isNaN_greatestOf xs⟩, fun h => ?_, fun h => ?_, fun ys h => ?_,
    fun ys => ?_⟩
  · exact ⟨exists_numEq_leastOf h, exists_numEq_greatestOf h,
      fun x hmem hx => ⟨numLe_leastOf hmem hx, numLe_greatestOf hmem hx⟩,
        numLe_leastOf_greatestOf h⟩
  · have hnan : ∀ x ∈ xs, x.isNaN = true := fun x hmem =>
      (Bool.eq_false_or_eq_true x.isNaN).resolve_right fun hx => h ⟨x, hmem, hx⟩
    exact ⟨leastOf_of_forall_isNaN hnan, greatestOf_of_forall_isNaN hnan⟩
  · exact ⟨numEq_leastOf h, numEq_greatestOf h⟩
  · exact ⟨leastOf_append xs ys, greatestOf_append xs ys⟩

/-- A NaN, a zero and infinity, in another order with the zero twice and without the NaN, and NaNs
only. -/
theorem extremes_of_zero_and_infinity :
    let xs : List Double := [.nan .double false, infinity .double false, .zero .double true]
    let ys : List Double := [.zero .double true, .zero .double true, infinity .double false]
    let zs : List Double := [.nan .double false, .nan .double true]
    ((∃ x ∈ xs, x.isNaN = false) ∧
      (Summary.ofSamples xs).least.numLe (Summary.ofSamples xs).greatest = true) ∧
    ((∀ x : Double, x.isNaN = false → (x ∈ xs ↔ x ∈ ys)) ∧
      (Summary.ofSamples xs).least.numEq (Summary.ofSamples ys).least = true) ∧
    ((¬ ∃ x ∈ zs, x.isNaN = false) ∧ (Summary.ofSamples zs).least = infinity .double false) := by
  intro xs ys zs
  have hnumber : ∃ x ∈ xs, x.isNaN = false := ⟨infinity .double false, by simp [xs], rfl⟩
  have hsame : ∀ x : Double, x.isNaN = false → (x ∈ xs ↔ x ∈ ys) := by
    intro x hx
    have hnan : x ≠ .nan .double false := by
      rintro rfl
      cases hx
    simpa [xs, ys, hnan] using Or.comm
  have hnone : ¬ ∃ x ∈ zs, x.isNaN = false := by decide
  exact ⟨⟨hnumber, ((extremes_of_samples xs).2.1 hnumber).2.2.2⟩,
    ⟨hsame, ((extremes_of_samples xs).2.2.2.1 ys hsame).1⟩,
    ⟨hnone, ((extremes_of_samples zs).2.2.1 hnone).1⟩⟩

end ScriptCell.Timing
