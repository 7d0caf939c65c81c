import Mathlib.Algebra.BigOperators.Fin
import Mathlib.Algebra.Order.BigOperators.Group.Finset
import Mathlib.Data.Int.Notation
set_option autoImplicit false

/-!
# Foundation: tables of counts

How often each pair occurs in a list, as a table with a row for every first part and a
column for every second one.  Rows, columns and the whole table add up to counts over the
list; so do the parts of the table beside one row.
-/

namespace SmartIDS.Foundation

namespace Contingency

variable {α β : Type} [DecidableEq α] [DecidableEq β]

/-- The table with one more in a cell. -/
def increment (table : α → β → ℕ) (a : α) (b : β) : α → β → ℕ := fun i j =>
  if i = a ∧ j = b then table i j + 1 else table i j

/-- How often each pair occurs. -/
def tally (pairs : List (α × β)) : α → β → ℕ := fun i j => pairs.count (i, j)

@[simp] theorem tally_nil : tally ([] : List (α × β)) = fun _ _ => 0 := rfl

theorem increment_tally (pairs : List (α × β)) (a : α) (b : β) :
    increment (tally pairs) a b = tally (pairs ++ [(a, b)]) := by
  funext i j
  unfold increment tally
  rw [List.count_append]
  by_cases h : i = a ∧ j = b
  · obtain ⟨rfl, rfl⟩ := h
    rw [if_pos ⟨rfl, rfl⟩, List.count_singleton_self]
  · have hne : (a, b) ≠ (i, j) := fun heq => h ⟨(Prod.mk.inj heq).1.symm, (Prod.mk.inj heq).2.symm⟩
    have hzero : List.count (i, j) [(a, b)] = 0 :=
      List.count_eq_zero_of_not_mem fun hmem => hne (List.mem_singleton.mp hmem).symm
    rw [if_neg h, hzero, add_zero]

theorem foldl_increment_tally (pairs done : List (α × β)) :
    pairs.foldl (fun table pair => increment table pair.1 pair.2) (tally done) =
      tally (done ++ pairs) := by
  induction pairs generalizing done with
  | nil => rw [List.append_nil, List.foldl_nil]
  | cons pair rest ih =>
    rw [List.foldl_cons, increment_tally, ih, List.append_assoc, List.singleton_append]

/-! ## Sums -/

theorem sum_row [Fintype β] (pairs : List (α × β)) (i : α) :
    ∑ j, tally pairs i j = pairs.countP fun pair => pair.1 = i := by
  induction pairs with
  | nil => simp
  | cons pair rest ih =>
    have hcell (j : β) : tally (pair :: rest) i j =
        tally rest i j + if pair = (i, j) then 1 else 0 := by
      simp [tally, List.count_cons]
    have hone : (∑ j, if pair = (i, j) then 1 else 0) = if pair.1 = i then 1 else 0 := by
      obtain ⟨a, b⟩ := pair
      by_cases h : a = i <;> simp [h]
    simp only [hcell, Finset.sum_add_distrib, ih, hone, List.countP_cons, decide_eq_true_iff]

theorem tally_swap (pairs : List (α × β)) (i : α) (j : β) :
    tally (pairs.map Prod.swap) j i = tally pairs i j :=
  List.count_map_of_injective pairs Prod.swap Prod.swap_injective (i, j)

theorem sum_column [Fintype α] (pairs : List (α × β)) (j : β) :
    ∑ i, tally pairs i j = pairs.countP fun pair => pair.2 = j := by
  calc ∑ i, tally pairs i j
      = ∑ i, tally (pairs.map Prod.swap) j i := by simp only [tally_swap]
    _ = (pairs.map Prod.swap).countP fun pair => pair.1 = j := sum_row _ j
    _ = pairs.countP fun pair => pair.2 = j := List.countP_map

theorem sum_all [Fintype α] [Fintype β] (pairs : List (α × β)) :
    ∑ i, ∑ j, tally pairs i j = pairs.length := by
  simp only [sum_row]
  induction pairs with
  | nil => simp
  | cons pair rest ih =>
    simp only [List.countP_cons, decide_eq_true_iff, Finset.sum_add_distrib, ih,
      List.length_cons]
    simp

theorem sum_diagonal [Fintype α] (pairs : List (α × α)) :
    ∑ i, tally pairs i i = pairs.countP fun pair => pair.1 = pair.2 := by
  induction pairs with
  | nil => simp
  | cons pair rest ih =>
    have hcell (i : α) : tally (pair :: rest) i i =
        tally rest i i + if pair = (i, i) then 1 else 0 := by
      simp [tally, List.count_cons]
    have hone : (∑ i, if pair = (i, i) then 1 else 0) = if pair.1 = pair.2 then 1 else 0 := by
      obtain ⟨a, b⟩ := pair
      by_cases h : a = b
      · simp [h]
      · have hoff (i : α) : ¬ (a = i ∧ b = i) := fun hi => h (hi.1.trans hi.2.symm)
        simp [h, hoff]
    simp only [hcell, Finset.sum_add_distrib, ih, hone, List.countP_cons, decide_eq_true_iff]

/-! ## Beside one row -/

/-- Counting with and without a second property. -/
theorem countP_split {γ : Type} (q r : γ → Prop) [DecidablePred q] [DecidablePred r]
    (l : List γ) :
    (l.countP fun a => r a) = (l.countP fun a => q a ∧ r a) + l.countP fun a => ¬ q a ∧ r a := by
  rw [List.countP_eq_countP_filter_add l (fun a => r a) fun a => q a, List.countP_filter,
    List.countP_filter]
  congr 1 <;> exact List.countP_congr fun a _ => by simp [and_comm]

theorem tally_eq_countP (pairs : List (α × β)) (i : α) (j : β) :
    tally pairs i j = pairs.countP fun pair => pair.1 = i ∧ pair.2 = j :=
  List.countP_congr fun pair _ => by simp [Prod.ext_iff]

/-- A column without the cell of one row. -/
theorem column_sub_cell [Fintype α] (pairs : List (α × β)) (i : α) (j : β) :
    ((∑ k, tally pairs k j : ℕ) : ℤ) - tally pairs i j =
      (pairs.countP fun pair => pair.1 ≠ i ∧ pair.2 = j : ℕ) := by
  have hsplit := countP_split (fun pair : α × β => pair.1 = i) (fun pair => pair.2 = j) pairs
  rw [sum_column, tally_eq_countP]
  simp only [ne_eq]
  omega

/-- The table without one row and without what is left of one column. -/
theorem all_sub_row_sub_rest [Fintype α] [Fintype β] (pairs : List (α × β)) (i : α) (j : β) :
    ((∑ k, ∑ l, tally pairs k l : ℕ) : ℤ) - (∑ l, tally pairs i l : ℕ) -
        (pairs.countP fun pair => pair.1 ≠ i ∧ pair.2 = j : ℕ) =
      (pairs.countP fun pair => pair.1 ≠ i ∧ pair.2 ≠ j : ℕ) := by
  have hrow := List.length_eq_countP_add_countP (fun pair : α × β => decide (pair.1 = i))
    (l := pairs)
  have hsplit := countP_split (fun pair : α × β => pair.2 = j) (fun pair => pair.1 ≠ i) pairs
  simp only [and_comm (a := _ = j), and_comm (a := ¬ _ = j), decide_eq_true_iff, ne_eq]
    at hsplit hrow
  rw [sum_all, sum_row]
  simp only [ne_eq]
  omega

end Contingency

end SmartIDS.Foundation
