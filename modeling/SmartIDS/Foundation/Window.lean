import Mathlib.Data.List.Basic
import Mathlib.Data.List.TakeWhile
import Mathlib.Order.Basic
import Mathlib.Order.Lattice
import SmartIDS.Foundation.Dict
set_option autoImplicit false

/-!
# Foundation: head-trimmed queues and sliding windows

A sliding window is kept as a queue of stamped elements.  New elements enter at
the tail; from time to time the head is trimmed, by popping elements while the
first one is older than a cutoff.  Popping stops at the first element that is
young enough, so the queue is the window of its history only when stamps never
decrease along it.  This module states that once, over any linear order of
stamps, together with the algebra of nested cutoffs, and then for a dictionary
that keeps one such queue per key.
-/

namespace SmartIDS.Foundation

namespace Window

variable {α τ : Type} [LinearOrder τ]

/-- Pop elements from the head while they are older than the cutoff. -/
def trim (stamp : α → τ) (cutoff : τ) (q : List α) : List α :=
  q.dropWhile fun x => stamp x < cutoff

/-- The elements no older than the cutoff. -/
def since (stamp : α → τ) (cutoff : τ) (q : List α) : List α :=
  q.filter fun x => cutoff ≤ stamp x

/-- Stamps never decrease along the queue. -/
def Chronological (stamp : α → τ) (q : List α) : Prop :=
  q.Pairwise fun x y => stamp x ≤ stamp y

variable {stamp : α → τ} {c c' : τ} {q : List α}

@[simp] theorem trim_nil : trim stamp c ([] : List α) = [] := rfl

@[simp] theorem since_nil : since stamp c ([] : List α) = [] := rfl

theorem since_append (q r : List α) :
    since stamp c (q ++ r) = since stamp c q ++ since stamp c r :=
  List.filter_append ..

theorem since_singleton_of_le {x : α} (h : c ≤ stamp x) : since stamp c [x] = [x] := by
  simp [since, h]

theorem Chronological.concat {x : α} (h : Chronological stamp q)
    (hlast : ∀ y ∈ q, stamp y ≤ stamp x) : Chronological stamp (q ++ [x]) := by
  rw [Chronological, List.pairwise_append]
  refine ⟨h, List.pairwise_singleton _ _, ?_⟩
  intro y hy z hz
  rw [List.mem_singleton.mp hz]
  exact hlast y hy

theorem Chronological.since (h : Chronological stamp q) :
    Chronological stamp (Window.since stamp c q) :=
  List.Pairwise.filter _ h

/-- On a chronological queue, trimming the head computes the window. -/
theorem trim_eq_since (h : Chronological stamp q) : trim stamp c q = since stamp c q := by
  induction q with
  | nil => rfl
  | cons x q ih =>
    obtain ⟨hx, hq⟩ := List.pairwise_cons.mp h
    by_cases hlt : stamp x < c
    · have hkeep : ¬ c ≤ stamp x := not_le.mpr hlt
      simpa [trim, since, hlt, hkeep] using ih hq
    · -- the first element is young enough, hence so is every later one
      have hle : c ≤ stamp x := not_lt.mp hlt
      have hall : ∀ y ∈ q, c ≤ stamp y := fun y hy => le_trans hle (hx y hy)
      have hfilter : q.filter (fun y => decide (c ≤ stamp y)) = q := by
        rw [List.filter_eq_self]
        intro y hy
        simpa using hall y hy
      simp [trim, since, hlt, hle, hfilter]

theorem trim_sublist (stamp : α → τ) (c : τ) (q : List α) : (trim stamp c q).Sublist q :=
  List.dropWhile_sublist _

/-- In any order of the stamps, what trimming pops is older than the cutoff. -/
theorem mem_trim_or_lt (stamp : α → τ) (c : τ) {x : α} (h : x ∈ q) :
    x ∈ trim stamp c q ∨ stamp x < c := by
  rw [← List.takeWhile_append_dropWhile (p := fun x => decide (stamp x < c)) (l := q)] at h
  rcases List.mem_append.mp h with hpopped | hkept
  · have hold := List.mem_takeWhile_imp hpopped
    exact Or.inr (of_decide_eq_true hold)
  · exact Or.inl hkept

/-- A later cutoff absorbs an earlier one. -/
theorem since_since_of_le (h : c ≤ c') : since stamp c' (since stamp c q) = since stamp c' q := by
  rw [since, since, List.filter_filter]
  apply List.filter_congr
  intro x _
  by_cases hx : c' ≤ stamp x
  · have : c ≤ stamp x := le_trans h hx
    simp [hx, this]
  · simp [hx]

theorem trim_since_of_le (hq : Chronological stamp q) (h : c ≤ c') :
    trim stamp c' (since stamp c q) = since stamp c' q := by
  rw [trim_eq_since hq.since, since_since_of_le h]

/-- A window with a later cutoff is a sublist of the one with an earlier cutoff. -/
theorem since_sublist_since (h : c ≤ c') : (since stamp c' q).Sublist (since stamp c q) := by
  rw [← since_since_of_le h]
  exact List.filter_sublist

end Window

/-! ## One queue per key -/

namespace Dict

variable {α β : Type} [DecidableEq α]

/-- The queue of a key, empty when the key is absent. -/
def queue (d : Dict α (List β)) (k : α) : List β := (d.get? k).getD []

@[simp] theorem queue_empty (k : α) : (empty : Dict α (List β)).queue k = [] := rfl

theorem queue_set (d : Dict α (List β)) (k j : α) (q : List β) :
    (d.set k q).queue j = if j = k then q else d.queue j := by
  unfold queue
  rw [get?_set]
  by_cases h : j = k <;> simp [h]

@[simp] theorem queue_set_self (d : Dict α (List β)) (k : α) (q : List β) :
    (d.set k q).queue k = q := by
  simp [queue_set]

theorem queue_erase (d : Dict α (List β)) (k j : α) :
    (d.erase k).queue j = if j = k then [] else d.queue j := by
  unfold queue
  rw [get?_erase]
  by_cases h : j = k <;> simp [h]

theorem queue_of_get?_none {d : Dict α (List β)} {k : α} (h : d.get? k = none) :
    d.queue k = [] := by
  simp [queue, h]

theorem queue_of_get?_some {d : Dict α (List β)} {k : α} {q : List β} (h : d.get? k = some q) :
    d.queue k = q := by
  simp [queue, h]

theorem queue_of_notMem {d : Dict α (List β)} {k : α} (h : k ∉ d.keys) : d.queue k = [] :=
  queue_of_get?_none ((get?_eq_none_iff d k).mpr h)

end Dict

end SmartIDS.Foundation
