import Mathlib.Algebra.BigOperators.Group.List.Basic
import Mathlib.Algebra.Order.BigOperators.Group.List
import Mathlib.Algebra.Order.Field.Basic
set_option autoImplicit false

/-!
# Foundation: finite distributions

A list of shares that are not negative and add up to one: a list of counts divided by
their sum, or all of it on one place.  The greatest share is at least the mean of them.
-/

namespace SmartIDS.Foundation

variable {K : Type} [Field K] [LinearOrder K]

/-- The shares are not negative and add up to one. -/
structure IsDistribution (ps : List K) : Prop where
  nonneg : ∀ p ∈ ps, 0 ≤ p
  sum : ps.sum = 1

namespace IsDistribution

/-- Every count over the sum of the counts. -/
def normalise (counts : List K) : List K := counts.map (· / counts.sum)

/-- All of it on one of `n` places; nothing at all where there is no such place. -/
def pointMass (n i : ℕ) : List K := (List.range n).map fun j => if j = i then 1 else 0

omit [LinearOrder K] in
theorem length_normalise (counts : List K) : (normalise counts).length = counts.length :=
  List.length_map _

omit [LinearOrder K] in
theorem length_pointMass (n i : ℕ) : (pointMass n i : List K).length = n := by
  simp [pointMass]

variable [IsStrictOrderedRing K]

theorem of_normalise {counts : List K} (hnonneg : ∀ c ∈ counts, 0 ≤ c) (hpos : 0 < counts.sum) :
    IsDistribution (normalise counts) where
  nonneg p hp := by
    obtain ⟨c, hc, rfl⟩ := List.mem_map.mp hp
    exact div_nonneg (hnonneg c hc) hpos.le
  sum := by
    have hsum : ∀ (d : K) (cs : List K), (cs.map (· / d)).sum = cs.sum / d := by
      intro d cs
      induction cs with
      | nil => simp
      | cons c cs ih => rw [List.map_cons, List.sum_cons, ih, List.sum_cons, add_div]
    rw [normalise, hsum, div_self hpos.ne']

theorem of_pointMass {n i : ℕ} (h : i < n) : IsDistribution (pointMass n i : List K) where
  nonneg p hp := by
    obtain ⟨j, -, rfl⟩ := List.mem_map.mp hp
    split_ifs
    · exact zero_le_one
    · exact le_rfl
  sum := by
    unfold pointMass
    rw [List.sum_map_ite_eq]
    simp [h]

/-- No share is greater than one. -/
theorem le_one {ps : List K} (h : IsDistribution ps) {p : K} (hp : p ∈ ps) : p ≤ 1 := by
  rw [← h.sum]
  exact List.single_le_sum h.nonneg p hp

/-- The greatest share is at least the mean. -/
theorem inv_length_le {ps : List K} (h : IsDistribution ps) {m : K} (hm : ∀ p ∈ ps, p ≤ m) :
    1 / (ps.length : K) ≤ m := by
  have hsum : ps.sum ≤ ps.length • m := List.sum_le_card_nsmul ps m hm
  rw [h.sum, nsmul_eq_mul] at hsum
  have hpos : 0 < (ps.length : K) := by
    rw [Nat.cast_pos, List.length_pos_iff]
    rintro rfl
    exact absurd h.sum (by simp)
  rwa [div_le_iff₀ hpos, mul_comm]

end IsDistribution

end SmartIDS.Foundation
