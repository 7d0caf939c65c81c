import Mathlib.Data.List.Count
import Mathlib.Data.Rat.Floor
import Mathlib.Tactic.Linarith
import SmartIDS.Foundation.Dict
set_option autoImplicit false

/-!
# Python: counters

`collections.Counter`: a dictionary of counts in which a key that is not written
counts nothing.  The counter of a list counts each of its elements.
-/

namespace SmartIDS.Python

open SmartIDS.Foundation

abbrev Counter (α : Type) : Type := Dict α ℤ

namespace Counter

variable {α : Type} [DecidableEq α]

/-- `counter[key]`. -/
def count (c : Counter α) (k : α) : ℤ := (c.get? k).getD 0

/-- `counter[key] += 1`. -/
def increment (c : Counter α) (k : α) : Counter α := c.set k (c.count k + 1)

/-- `counter.update(keys)`. -/
def update (c : Counter α) (ks : List α) : Counter α := ks.foldl increment c

/-- `Counter(keys)`. -/
def of (ks : List α) : Counter α := update Dict.empty ks

theorem update_append (c : Counter α) (ks js : List α) :
    c.update (ks ++ js) = (c.update ks).update js := List.foldl_append

theorem of_append (ks js : List α) : of (ks ++ js) = (of ks).update js := update_append _ _ _

theorem of_concat (ks : List α) (k : α) : of (ks ++ [k]) = (of ks).increment k := of_append _ _

theorem count_set (c : Counter α) (k j : α) (n : ℤ) :
    count (c.set k n) j = if j = k then n else c.count j := by
  unfold count
  rw [Dict.get?_set]
  split <;> rfl

theorem count_update (c : Counter α) (ks : List α) (k : α) :
    (c.update ks).count k = c.count k + ks.count k := by
  induction ks generalizing c with
  | nil => simp [update]
  | cons j ks ih =>
    change ((c.increment j).update ks).count k = _
    rw [ih, increment, count_set, List.count_cons]
    rcases eq_or_ne k j with rfl | hne
    · simp
      omega
    · simp [hne, hne.symm]

theorem count_of (ks : List α) (k : α) : (of ks).count k = ks.count k := by
  rw [of, count_update]
  simp [count]

theorem mem_keys_update (c : Counter α) (ks : List α) (k : α) :
    k ∈ (c.update ks).keys ↔ k ∈ c.keys ∨ k ∈ ks := by
  induction ks generalizing c with
  | nil => simp [update]
  | cons j ks ih =>
    change k ∈ ((c.increment j).update ks).keys ↔ _
    rw [ih, increment, Dict.mem_keys_set, List.mem_cons]
    tauto

/-- The entries of the counter of a list are its elements with their numbers. -/
theorem mem_entries_of (ks : List α) (k : α) (n : ℤ) :
    (k, n) ∈ (of ks).entries ↔ k ∈ ks ∧ n = ks.count k := by
  have hkeys : k ∈ (of ks).keys ↔ k ∈ ks := by simp [of, mem_keys_update]
  have hcount : ((of ks).get? k).getD 0 = ks.count k := count_of ks k
  rw [← Dict.get?_eq_some_iff, ← hkeys, ← Dict.get?_isSome_iff]
  cases hget : (of ks).get? k with
  | none => simp
  | some m =>
    rw [hget, Option.getD_some] at hcount
    simp [hcount, eq_comm]

end Counter

/-- `round(x)`: a half goes to the even neighbour. -/
def pyRound (x : ℚ) : ℤ :=
  let fraction := x - ⌊x⌋
  if fraction < 1 / 2 then ⌊x⌋
  else if 1 / 2 < fraction then ⌊x⌋ + 1
  else if ⌊x⌋ % 2 = 0 then ⌊x⌋ else ⌊x⌋ + 1

/-- Rounding stays below an integer bound. -/
theorem pyRound_le {x : ℚ} {n : ℤ} (h : x ≤ n) : pyRound x ≤ n := by
  have hfloor : ⌊x⌋ ≤ n := by exact_mod_cast (Int.floor_le x).trans h
  unfold pyRound
  rcases hfloor.eq_or_lt with heq | hlt
  · have hx : x - ⌊x⌋ < 1 / 2 := by
      rw [heq]
      linarith
    rw [if_pos hx]
    exact hfloor
  · simp only
    split_ifs <;> omega

theorem le_pyRound {x : ℚ} {n : ℤ} (h : n ≤ x) : n ≤ pyRound x := by
  have hfloor : n ≤ ⌊x⌋ := Int.le_floor.mpr h
  unfold pyRound
  simp only
  split_ifs <;> omega

theorem pyRound_intCast (n : ℤ) : pyRound n = n :=
  le_antisymm (pyRound_le le_rfl) (le_pyRound le_rfl)

end SmartIDS.Python
