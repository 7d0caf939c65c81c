import Mathlib.Algebra.BigOperators.Fin
import Mathlib.Algebra.Order.BigOperators.Group.Finset
import Mathlib.Algebra.Order.Field.Basic
import Mathlib.Tactic.Linarith
set_option autoImplicit false

/-!
# Foundation: guarded quotients and means

A quotient that is 0 where its divisor is not positive, the harmonic mean of two shares
and the weighted mean of a family of them.
-/

namespace SmartIDS.Foundation

namespace Ratios

variable {K : Type} [Field K] [LinearOrder K] [IsStrictOrderedRing K]

/-- The quotient by a positive number; 0 by any other one. -/
def ratio (a b : K) : K := if 0 < b then a / b else 0

theorem ratio_nonneg {a b : K} (ha : 0 ≤ a) : 0 ≤ ratio a b := by
  unfold ratio
  split
  · next hb => exact div_nonneg ha hb.le
  · exact le_rfl

/-- A part of a whole. -/
theorem ratio_le_one {a b : K} (h : a ≤ b) : ratio a b ≤ 1 := by
  unfold ratio
  split
  · next hb => exact (div_le_one hb).mpr h
  · exact zero_le_one

omit [IsStrictOrderedRing K] in
theorem ratio_mul {a b : K} (ha : 0 ≤ a) (h : a ≤ b) : ratio a b * b = a := by
  unfold ratio
  split
  · next hb => exact div_mul_cancel₀ a hb.ne'
  · next hb =>
    rw [zero_mul]
    exact le_antisymm ha (h.trans (not_lt.mp hb))

/-! ## The harmonic mean -/

/-- The harmonic mean of two numbers; that of two zeros is 0. -/
def harmonicMean (p r : K) : K := ratio (2 * p * r) (p + r)

omit [IsStrictOrderedRing K] in
theorem harmonicMean_comm (p r : K) : harmonicMean p r = harmonicMean r p := by
  unfold harmonicMean
  rw [add_comm, mul_right_comm]

/-- It is between the two numbers. -/
theorem harmonicMean_between {p r : K} (hp : 0 ≤ p) (h : p ≤ r) :
    p ≤ harmonicMean p r ∧ harmonicMean p r ≤ r := by
  unfold harmonicMean ratio
  split
  · next hpos =>
    rw [le_div_iff₀ hpos, div_le_iff₀ hpos]
    have hlow : p * p ≤ p * r := mul_le_mul_of_nonneg_left h hp
    have hhigh : p * r ≤ r * r := mul_le_mul_of_nonneg_right h (hp.trans h)
    constructor <;> linarith [mul_comm p r]
  · next hpos => constructor <;> linarith

theorem min_le_harmonicMean {p r : K} (hp : 0 ≤ p) (hr : 0 ≤ r) : min p r ≤ harmonicMean p r := by
  rcases le_total p r with h | h
  · rw [min_eq_left h]
    exact (harmonicMean_between hp h).1
  · rw [min_eq_right h, harmonicMean_comm]
    exact (harmonicMean_between hr h).1

theorem harmonicMean_le_max {p r : K} (hp : 0 ≤ p) (hr : 0 ≤ r) : harmonicMean p r ≤ max p r := by
  rcases le_total p r with h | h
  · rw [max_eq_right h]
    exact (harmonicMean_between hp h).2
  · rw [max_eq_left h, harmonicMean_comm]
    exact (harmonicMean_between hr h).2

/-! ## The weighted mean -/

section weighted

variable {ι : Type} [Fintype ι] (x w : ι → K)

/-- What the weights add up to, and 1 where they add up to nothing. -/
def divisor : K := if 0 < ∑ i, w i then ∑ i, w i else 1

theorem divisor_pos : 0 < divisor w := by
  unfold divisor
  split
  · assumption
  · exact zero_lt_one

/-- The mean of shares by their weights. -/
def weightedMean : K := (∑ i, x i * w i) / divisor w

variable {x w}

theorem weightedMean_nonneg (hx : ∀ i, 0 ≤ x i) (hw : ∀ i, 0 ≤ w i) : 0 ≤ weightedMean x w :=
  div_nonneg (Finset.sum_nonneg fun i _ => mul_nonneg (hx i) (hw i)) (divisor_pos w).le

theorem weightedMean_le_one (hx : ∀ i, x i ≤ 1) (hw : ∀ i, 0 ≤ w i) : weightedMean x w ≤ 1 := by
  have hsum : ∑ i, x i * w i ≤ ∑ i, w i :=
    Finset.sum_le_sum fun i _ => mul_le_of_le_one_left (hw i) (hx i)
  have hdivisor : ∑ i, w i ≤ divisor w := by
    unfold divisor
    split
    · exact le_rfl
    · next hnot => exact (not_lt.mp hnot).trans zero_le_one
  exact (div_le_one (divisor_pos w)).mpr (hsum.trans hdivisor)

/-- Shares of the weights themselves: their mean is the share of the whole. -/
theorem weightedMean_ratio {a : ι → K} (ha : ∀ i, 0 ≤ a i) (h : ∀ i, a i ≤ w i) :
    weightedMean (fun i => ratio (a i) (w i)) w = ratio (∑ i, a i) (∑ i, w i) := by
  have hsum : ∑ i, ratio (a i) (w i) * w i = ∑ i, a i :=
    Finset.sum_congr rfl fun i _ => ratio_mul (ha i) (h i)
  unfold weightedMean divisor
  rw [hsum]
  unfold ratio
  split
  · rfl
  · next hnot =>
    have hle : ∑ i, a i ≤ 0 := (Finset.sum_le_sum fun i _ => h i).trans (not_lt.mp hnot)
    rw [le_antisymm hle (Finset.sum_nonneg fun i _ => ha i), zero_div]

variable (x w) (σ : Equiv.Perm ι)

omit [IsStrictOrderedRing K] in
theorem divisor_comp : divisor (w ∘ σ) = divisor w := by
  have hsum : ∑ i, (w ∘ σ) i = ∑ i, w i := Equiv.sum_comp σ w
  unfold divisor
  rw [hsum]

omit [IsStrictOrderedRing K] in
/-- The order is of no account. -/
theorem weightedMean_comp : weightedMean (x ∘ σ) (w ∘ σ) = weightedMean x w := by
  unfold weightedMean
  rw [divisor_comp]
  exact congrArg (· / divisor w) (Equiv.sum_comp σ fun i => x i * w i)

end weighted

end Ratios

end SmartIDS.Foundation
