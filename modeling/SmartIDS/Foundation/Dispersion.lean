import Mathlib.Algebra.Order.BigOperators.Group.List
import Mathlib.Algebra.Order.Field.Basic
import Mathlib.Data.List.Induction
import Mathlib.Data.Nat.Cast.Order.Ring
import Mathlib.Tactic.FieldSimp
import Mathlib.Tactic.LinearCombination
import Mathlib.Tactic.Ring
set_option autoImplicit false

/-!
# Foundation: mean, spread and extremes of a list

The mean of a list, the sum of the squared deviations from it, and its least and
greatest element.  Each has a law for one element more: `deviation_concat` is
the recurrence of Welford's algorithm, stated with the two means it mentions.
-/

namespace SmartIDS.Foundation

section Field

variable {K : Type} [Field K]

/-- The mean; that of no elements is 0. -/
def mean (xs : List K) : K := xs.sum / xs.length

/-- The sum of the squared distances from a point. -/
def deviation (c : K) (xs : List K) : K := (xs.map fun x => (x - c) ^ 2).sum

@[simp] theorem mean_nil : mean ([] : List K) = 0 := by simp [mean]

@[simp] theorem deviation_nil (c : K) : deviation c [] = 0 := rfl

@[simp] theorem mean_singleton (x : K) : mean [x] = x := by simp [mean]

@[simp] theorem deviation_singleton (c x : K) : deviation c [x] = (x - c) ^ 2 := by
  simp [deviation]

/-- The squared distances from another point. -/
theorem deviation_shift (c d : K) (xs : List K) :
    deviation d xs = deviation c xs + 2 * (c - d) * (xs.sum - xs.length * c) +
      xs.length * (c - d) ^ 2 := by
  induction xs with
  | nil => simp
  | cons x xs ih =>
    have hcons : ∀ e : K, deviation e (x :: xs) = (x - e) ^ 2 + deviation e xs := fun _ => rfl
    rw [hcons, hcons, ih, List.sum_cons, List.length_cons, Nat.cast_add, Nat.cast_one]
    ring

variable [CharZero K]

theorem length_mul_mean (xs : List K) : xs.length * mean xs = xs.sum := by
  cases xs with
  | nil => simp
  | cons x xs =>
    have hlen : ((x :: xs).length : K) ≠ 0 := by
      rw [Nat.cast_ne_zero, List.length_cons]
      exact Nat.succ_ne_zero _
    exact mul_div_cancel₀ _ hlen

/-- The mean after one element more. -/
theorem mean_concat (xs : List K) (x : K) :
    mean (xs ++ [x]) = mean xs + (x - mean xs) / (xs.length + 1) := by
  have hlen : (xs.length : K) + 1 ≠ 0 := Nat.cast_add_one_ne_zero _
  have hsum := length_mul_mean xs
  rw [mean, List.sum_append, List.sum_singleton, List.length_append, List.length_singleton,
    Nat.cast_add, Nat.cast_one, ← hsum]
  field_simp
  ring

/-- Welford's recurrence: the squared deviations from the mean after one element
more. -/
theorem deviation_concat (xs : List K) (x : K) :
    deviation (mean (xs ++ [x])) (xs ++ [x]) =
      deviation (mean xs) xs + (x - mean xs) * (x - mean (xs ++ [x])) := by
  have hlen : (xs.length : K) + 1 ≠ 0 := Nat.cast_add_one_ne_zero _
  have hstep : ((xs.length : K) + 1) * (mean (xs ++ [x]) - mean xs) = x - mean xs := by
    rw [mean_concat, add_sub_cancel_left, mul_div_cancel₀ _ hlen]
  have happend : deviation (mean (xs ++ [x])) (xs ++ [x]) =
      deviation (mean (xs ++ [x])) xs + (x - mean (xs ++ [x])) ^ 2 := by
    simp [deviation]
  rw [happend, deviation_shift (mean xs), length_mul_mean, sub_self, mul_zero, add_zero]
  linear_combination (mean (xs ++ [x]) - mean xs) * hstep

end Field

section Order

variable {K : Type} [Field K] [LinearOrder K] [IsStrictOrderedRing K]

/-- A lower bound of the elements of a list is one of their mean. -/
theorem le_mean {xs : List K} {c : K} (hne : xs ≠ []) (h : ∀ x ∈ xs, c ≤ x) : c ≤ mean xs := by
  have hlen : (0 : K) < xs.length := Nat.cast_pos.mpr (List.length_pos_iff.mpr hne)
  rw [mean, le_div_iff₀ hlen, mul_comm, ← nsmul_eq_mul]
  exact List.card_nsmul_le_sum xs c h

theorem mean_le {xs : List K} {c : K} (hne : xs ≠ []) (h : ∀ x ∈ xs, x ≤ c) : mean xs ≤ c := by
  have hlen : (0 : K) < xs.length := Nat.cast_pos.mpr (List.length_pos_iff.mpr hne)
  rw [mean, div_le_iff₀ hlen, mul_comm, ← nsmul_eq_mul]
  exact List.sum_le_card_nsmul xs c h

end Order

section Extremes

variable {α : Type} [LinearOrder α]

/-- The least element after one element more. -/
theorem min?_concat (xs : List α) (x : α) :
    (xs ++ [x]).min? = some (xs.min?.elim x (min · x)) := by
  cases xs with
  | nil => rfl
  | cons y xs =>
    rw [List.cons_append, List.min?_cons', List.min?_cons', List.foldl_append]
    rfl

/-- The greatest element after one element more. -/
theorem max?_concat (xs : List α) (x : α) :
    (xs ++ [x]).max? = some (xs.max?.elim x (max · x)) := by
  cases xs with
  | nil => rfl
  | cons y xs =>
    rw [List.cons_append, List.max?_cons', List.max?_cons', List.foldl_append]
    rfl

end Extremes

end SmartIDS.Foundation
