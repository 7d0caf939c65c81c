import Mathlib.Data.Finset.Card
import Mathlib.Data.List.Infix
import Mathlib.Data.List.Nodup
set_option autoImplicit false

/-!
# Foundation: a bounded first-in-first-out set

The last `max` distinct elements pushed, oldest first.  Pushing an element that
is present changes nothing, so an element leaves the set by age alone: once
pushed afresh it stays until `max` distinct others have been pushed after it.
That is `mem_foldl_push`.
-/

namespace SmartIDS.Foundation.BoundedFifo

variable {α : Type}

/-- The slice `l[-max:]` of a positive `max`. -/
def newest (max : ℕ) (l : List α) : List α := l.drop (l.length - max)

theorem newest_of_length_le {max : ℕ} {l : List α} (h : l.length ≤ max) : newest max l = l := by
  unfold newest
  rw [Nat.sub_eq_zero_of_le h, List.drop_zero]

theorem length_newest_le (max : ℕ) (l : List α) : (newest max l).length ≤ max := by
  unfold newest
  rw [List.length_drop]
  omega

theorem newest_suffix (max : ℕ) (l : List α) : newest max l <:+ l := List.drop_suffix _ _

theorem mem_of_mem_newest {max : ℕ} {l : List α} {a : α} (h : a ∈ newest max l) : a ∈ l :=
  (newest_suffix max l).subset h

/-- A suffix that is short enough survives the slice. -/
theorem newest_append {max : ℕ} {l suffix : List α} (h : suffix.length ≤ max) :
    newest max (l ++ suffix) = l.drop (l.length + suffix.length - max) ++ suffix := by
  unfold newest
  rw [List.length_append, List.drop_append_of_le_length (by omega)]

/-- Slicing as the elements come is slicing at the end. -/
theorem newest_newest_append (max : ℕ) (l suffix : List α) :
    newest max (newest max l ++ suffix) = newest max (l ++ suffix) := by
  unfold newest
  rw [List.length_append, List.length_append, List.length_drop]
  rcases Nat.le_total l.length max with hle | hle
  · rw [Nat.sub_eq_zero_of_le hle, List.drop_zero, Nat.sub_zero]
  · have hsplit : l.length + suffix.length - max =
        (l.length - max) + (l.length - (l.length - max) + suffix.length - max) := by omega
    rw [hsplit, ← List.drop_drop, List.drop_append_of_le_length (Nat.sub_le _ _)]

theorem length_newest (max : ℕ) (l : List α) : (newest max l).length = min l.length max := by
  unfold newest
  rw [List.length_drop]
  omega

theorem newest_min (max : ℕ) (l : List α) : newest (min l.length max) l = newest max l := by
  unfold newest
  congr 1
  omega

theorem getLast?_newest_concat {max : ℕ} (hmax : 0 < max) (l : List α) (a : α) :
    (newest max (l ++ [a])).getLast? = some a := by
  rw [newest_append (by simp only [List.length_singleton]; omega), List.getLast?_concat]

/-- `a` is present, and everything pushed after it is among `since`. -/
def Holds (a : α) (since : Finset α) (l : List α) : Prop :=
  ∃ older newer, l = older ++ a :: newer ∧ ∀ b ∈ newer, b ∈ since

theorem Holds.mem {a : α} {since : Finset α} {l : List α} (h : Holds a since l) : a ∈ l := by
  obtain ⟨older, newer, rfl, -⟩ := h
  simp

theorem Holds.mono {a : α} {since since' : Finset α} {l : List α} (h : Holds a since l)
    (hle : since ⊆ since') : Holds a since' l := by
  obtain ⟨older, newer, heq, hnewer⟩ := h
  exact ⟨older, newer, heq, fun b hb => hle (hnewer b hb)⟩

variable [DecidableEq α]

/-- Append an element that is not present, dropping the oldest ones beyond `max`. -/
def push (max : ℕ) (l : List α) (a : α) : List α :=
  if a ∈ l then l else newest max (l ++ [a])

theorem push_of_mem {max : ℕ} {l : List α} {a : α} (h : a ∈ l) : push max l a = l := if_pos h

theorem push_of_notMem {max : ℕ} {l : List α} {a : α} (h : a ∉ l) :
    push max l a = newest max (l ++ [a]) := if_neg h

theorem nodup_push {max : ℕ} {l : List α} (h : l.Nodup) (a : α) : (push max l a).Nodup := by
  unfold push
  split_ifs with hmem
  · exact h
  · have happend : (l ++ [a]).Nodup := by
      rw [← List.concat_eq_append]
      exact List.Nodup.concat hmem h
    exact happend.sublist (newest_suffix max _).sublist

theorem mem_of_mem_push {max : ℕ} {l : List α} {a b : α} (h : b ∈ push max l a) :
    b ∈ l ∨ b = a := by
  unfold push at h
  split_ifs at h
  · exact Or.inl h
  · simpa using mem_of_mem_newest h

theorem holds_push_self {max : ℕ} (hmax : 0 < max) {l : List α} {a : α} (h : a ∉ l) :
    Holds a ∅ (push max l a) := by
  rw [push_of_notMem h, newest_append (by simp only [List.length_singleton]; omega)]
  exact ⟨_, [], rfl, by simp⟩

/-- One push keeps `a` as long as fewer than `max` distinct others came after it.
The elements behind `a` are distinct, so there are at most as many as `since`
has. -/
theorem Holds.push {max : ℕ} {a b : α} {since : Finset α} {l : List α} (hnodup : l.Nodup)
    (h : Holds a since l) (hcard : ((insert b since).erase a).card < max) :
    Holds a (insert b since) (push max l b) := by
  rcases em (b ∈ l) with hmem | hmem
  · rw [push_of_mem hmem]
    exact h.mono (Finset.subset_insert b since)
  · obtain ⟨older, newer, rfl, hnewer⟩ := h
    have hafter : (a :: (newer ++ [b])).Nodup := by
      have hpush : (older ++ a :: newer ++ [b]).Nodup := by
        rw [← List.concat_eq_append]
        exact List.Nodup.concat hmem hnodup
      refine hpush.sublist ?_
      rw [List.append_assoc]
      exact List.sublist_append_right older _
    have hsubset : (newer ++ [b]).toFinset ⊆ (insert b since).erase a := by
      intro c hc
      rw [List.mem_toFinset] at hc
      have hne : c ≠ a := fun heq => (List.nodup_cons.mp hafter).1 (heq ▸ hc)
      refine Finset.mem_erase.mpr ⟨hne, Finset.mem_insert.mpr ?_⟩
      rcases List.mem_append.mp hc with hc | hc
      · exact Or.inr (hnewer c hc)
      · exact Or.inl (List.mem_singleton.mp hc)
    have hlength : (newer ++ [b]).length ≤ ((insert b since).erase a).card := by
      rw [← List.toFinset_card_of_nodup (List.nodup_cons.mp hafter).2]
      exact Finset.card_le_card hsubset
    have hshort : (a :: (newer ++ [b])).length ≤ max := by
      rw [List.length_cons]
      omega
    rw [push_of_notMem hmem, List.append_assoc, List.cons_append, newest_append hshort]
    refine ⟨_, newer ++ [b], rfl, ?_⟩
    intro c hc
    exact Finset.mem_of_mem_erase (hsubset (List.mem_toFinset.mpr hc))

theorem Holds.foldl_push {max : ℕ} {a : α} {since : Finset α} {l : List α} (hnodup : l.Nodup)
    (h : Holds a since l) (bs : List α)
    (hcard : ((bs.toFinset ∪ since).erase a).card < max) :
    Holds a (bs.toFinset ∪ since) (bs.foldl (BoundedFifo.push max) l) := by
  induction bs generalizing since l with
  | nil => simpa using h
  | cons b bs ih =>
    have hunion : (b :: bs).toFinset ∪ since = bs.toFinset ∪ insert b since := by
      rw [List.toFinset_cons, Finset.insert_union, Finset.union_insert]
    rw [hunion] at hcard ⊢
    have hstep : ((insert b since).erase a).card < max :=
      (Finset.card_le_card (Finset.erase_subset_erase a Finset.subset_union_right)).trans_lt hcard
    exact ih (nodup_push hnodup b) (h.push hnodup hstep) hcard

/-- A freshly pushed element is present until `max` distinct others have been
pushed after it. -/
theorem mem_foldl_push {max : ℕ} {l : List α} (hnodup : l.Nodup) {a : α} (hfresh : a ∉ l)
    (bs : List α) (hcard : (bs.toFinset.erase a).card < max) :
    a ∈ bs.foldl (push max) (push max l a) := by
  have hmax : 0 < max := (Nat.zero_le _).trans_lt hcard
  have hstart := holds_push_self hmax hfresh
  have hrun := hstart.foldl_push (nodup_push hnodup a) bs (by simpa using hcard)
  exact hrun.mem

/-- An element that is never pushed does not appear. -/
theorem notMem_foldl_push {max : ℕ} {l : List α} {a : α} (h : a ∉ l) {bs : List α}
    (hbs : a ∉ bs) : a ∉ bs.foldl (push max) l := by
  induction bs generalizing l with
  | nil => exact h
  | cons b bs ih =>
    rw [List.mem_cons, not_or] at hbs
    obtain ⟨hne, hrest⟩ := hbs
    refine ih (fun hmem => ?_) hrest
    rcases mem_of_mem_push hmem with hl | hb
    · exact h hl
    · exact hne hb

end SmartIDS.Foundation.BoundedFifo
