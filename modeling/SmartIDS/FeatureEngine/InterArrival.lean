import SmartIDS.FeatureEngine.FlowSpan
set_option autoImplicit false

/-!
# FeatureEngine: the inter-arrival statistics

`safe_iat_stats` sorts the time stamps first, so their order is of no account.  The
differences of the sorted time stamps add up to the distance from the least to the
greatest, none of them is negative, and the five statistics are in order.
-/

namespace SmartIDS.FeatureEngine

open SmartIDS.Foundation

variable {R : Type} [Zero R]

/-- What the statistics of at least two time stamps are to each other. -/
structure Telescopes (timestamps : List ℚ) (stats : IatStats R) : Prop where
  total_eq : stats.total = safeMax timestamps - safeMin timestamps
  total_eq_mul : stats.total = (timestamps.length - 1) * stats.mean
  min_nonneg : 0 ≤ stats.min
  min_le_mean : stats.min ≤ stats.mean
  mean_le_max : stats.mean ≤ stats.max
  max_le_total : stats.max ≤ stats.total
  kept : cleanedIats timestamps = gaps timestamps.mergeSort

/-! ## Order -/

/-- There is one way to sort. -/
theorem mergeSort_eq_of_perm {timestamps other : List ℚ} (h : other.Perm timestamps) :
    other.mergeSort = timestamps.mergeSort := by
  have hperm : other.mergeSort.Perm timestamps.mergeSort :=
    ((List.mergeSort_perm _ _).trans h).trans (List.mergeSort_perm _ _).symm
  refine hperm.eq_of_pairwise ?_ (pairwise_mergeSort other) (pairwise_mergeSort timestamps)
  exact fun a b _ _ hab hba => le_antisymm hab hba

theorem safeIatStats_eq_of_perm (sqrt : ℚ → R) {timestamps other : List ℚ}
    (h : other.Perm timestamps) : safeIatStats sqrt other = safeIatStats sqrt timestamps := by
  have hgaps : cleanedIats other = cleanedIats timestamps := by
    unfold cleanedIats
    rw [mergeSort_eq_of_perm h]
  unfold safeIatStats
  rw [h.length_eq, hgaps]

/-! ## Gaps -/

theorem length_gaps (ordered : List ℚ) : (gaps ordered).length = ordered.length - 1 := by
  unfold gaps
  rw [List.length_zipWith, List.length_tail]
  omega

theorem length_cleanedIats (timestamps : List ℚ) :
    (cleanedIats timestamps).length = timestamps.length - 1 := by
  rw [cleanedIats_eq, length_gaps, List.length_mergeSort]

theorem cleanedIats_nonneg (timestamps : List ℚ) : ∀ gap ∈ cleanedIats timestamps, 0 ≤ gap := by
  rw [cleanedIats_eq]
  exact gaps_nonneg (pairwise_mergeSort timestamps)

/-- With two time stamps there is a gap, and the statistics are those of the gaps. -/
theorem safeIatStats_of_two_le (sqrt : ℚ → R) {timestamps : List ℚ}
    (h : 2 ≤ timestamps.length) :
    cleanedIats timestamps ≠ [] ∧ safeIatStats sqrt timestamps =
      ⟨safeMin (cleanedIats timestamps), safeMax (cleanedIats timestamps),
        safeMean (cleanedIats timestamps), safeStd sqrt (cleanedIats timestamps),
        (cleanedIats timestamps).sum⟩ := by
  have hlength := length_cleanedIats timestamps
  have hne : cleanedIats timestamps ≠ [] := List.ne_nil_of_length_pos (by omega)
  refine ⟨hne, ?_⟩
  unfold safeIatStats
  rw [if_neg (by omega)]
  split
  · next hnil => exact absurd hnil hne
  · rfl

theorem telescopes_safeIatStats (sqrt : ℚ → R) {timestamps : List ℚ}
    (h : 2 ≤ timestamps.length) : Telescopes timestamps (safeIatStats sqrt timestamps) := by
  have htotal := total_safeIatStats sqrt timestamps
  obtain ⟨hordered, hordered'⟩ := safeIatStats_ordered sqrt timestamps
  obtain ⟨hne, hstats⟩ := safeIatStats_of_two_le sqrt h
  have hnonneg := cleanedIats_nonneg timestamps
  rw [hstats] at htotal hordered hordered' ⊢
  refine ⟨htotal, ?_, hnonneg _ (safeMin_mem hne), hordered, hordered', ?_, cleanedIats_eq _⟩
  · have hlength : ((cleanedIats timestamps).length : ℚ) = timestamps.length - 1 := by
      rw [length_cleanedIats, Nat.cast_sub (by omega), Nat.cast_one]
    rw [← hlength]
    change (cleanedIats timestamps).sum = _ * safeMean (cleanedIats timestamps)
    rw [safeMean_eq, length_mul_mean]
  · exact List.single_le_sum hnonneg _ (safeMax_mem hne)

/-- The order of the time stamps is of no account; the statistics of two or more of them
telescope, and those of fewer are 0. -/
theorem safeIatStats_spec (sqrt : ℚ → R) (timestamps : List ℚ) :
    (∀ other : List ℚ, other.Perm timestamps →
      safeIatStats sqrt other = safeIatStats sqrt timestamps) ∧
      (2 ≤ timestamps.length → Telescopes timestamps (safeIatStats sqrt timestamps)) ∧
      (timestamps.length < 2 → safeIatStats sqrt timestamps = .zero) :=
  ⟨fun _ hperm => safeIatStats_eq_of_perm sqrt hperm, telescopes_safeIatStats sqrt,
    fun hshort => if_pos hshort⟩

end SmartIDS.FeatureEngine
