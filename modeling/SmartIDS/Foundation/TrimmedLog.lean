import Mathlib.Data.List.TakeWhile
import Mathlib.Order.Lattice
import SmartIDS.Foundation.Machine
set_option autoImplicit false

/-!
# Foundation: a log of stamps under cutoffs

Stamps are written at the tail of a queue, and a cutoff pops the head while it is
not younger.  Writers and readers come in any order, so a cutoff may be older than
one before it.  A stamp survives if it is younger than every cutoff after it: the
queue never loses such a stamp, and holds no others while the stamps were written
in order.
-/

namespace SmartIDS.Foundation

/-- What happens to the log. -/
inductive LogEntry (τ : Type) where
  | stamp (t : τ)
  | cutoff (c : τ)

namespace TrimmedLog

variable {τ : Type} [LinearOrder τ]

/-- The log. -/
def log : Machine (List τ) (LogEntry τ) Unit where
  step q entry :=
    match entry with
    | .stamp t => (q ++ [t], ())
    | .cutoff c => (q.dropWhile fun t => t ≤ c, ())

/-- The queue after these entries. -/
def queue (es : List (LogEntry τ)) : List τ := log.exec [] es

omit [LinearOrder τ] in
/-- The stamps written. -/
def stamps (es : List (LogEntry τ)) : List τ :=
  es.filterMap fun entry =>
    match entry with
    | .stamp t => some t
    | .cutoff _ => none

/-- The stamps younger than every cutoff after them. -/
def survivors (es : List (LogEntry τ)) : List τ :=
  es.foldl (fun kept entry =>
    match entry with
    | .stamp t => kept ++ [t]
    | .cutoff c => kept.filter fun t => c < t) []

/-! ## One entry -/

theorem queue_stamp (es : List (LogEntry τ)) (t : τ) :
    queue (es ++ [.stamp t]) = queue es ++ [t] := Machine.exec_concat _ _ _ _

theorem queue_cutoff (es : List (LogEntry τ)) (c : τ) :
    queue (es ++ [.cutoff c]) = (queue es).dropWhile fun t => t ≤ c :=
  Machine.exec_concat _ _ _ _

theorem survivors_stamp (es : List (LogEntry τ)) (t : τ) :
    survivors (es ++ [.stamp t]) = survivors es ++ [t] := List.foldl_append ..

theorem survivors_cutoff (es : List (LogEntry τ)) (c : τ) :
    survivors (es ++ [.cutoff c]) = (survivors es).filter fun t => c < t := List.foldl_append ..

omit [LinearOrder τ] in
theorem stamps_append (es fs : List (LogEntry τ)) : stamps (es ++ fs) = stamps es ++ stamps fs :=
  List.filterMap_append ..

/-- What is popped is not younger than the cutoff. -/
theorem filter_dropWhile (c : τ) (q : List τ) :
    (q.dropWhile fun t => t ≤ c).filter (fun t => c < t) = q.filter fun t => c < t := by
  induction q with
  | nil => rfl
  | cons t q ih =>
    rw [List.dropWhile_cons]
    split_ifs with hle
    · have hnot : ¬ c < t := not_lt.mpr (of_decide_eq_true hle)
      rw [ih, List.filter_cons_of_neg (by simpa using hnot)]
    · rfl

/-- Where the stamps never decrease, popping the head leaves the younger ones. -/
theorem dropWhile_eq_filter {q : List τ} (h : q.Pairwise (· ≤ ·)) (c : τ) :
    (q.dropWhile fun t => t ≤ c) = q.filter fun t => c < t := by
  induction q with
  | nil => rfl
  | cons t q ih =>
    obtain ⟨ht, hq⟩ := List.pairwise_cons.mp h
    rw [List.dropWhile_cons]
    split_ifs with hle
    · have hnot : ¬ c < t := not_lt.mpr (of_decide_eq_true hle)
      rw [ih hq, List.filter_cons_of_neg (by simpa using hnot)]
    · -- the head is younger than the cutoff, and so is all that follows it
      have hlt : c < t := not_le.mp fun hle' => hle (decide_eq_true hle')
      rw [List.filter_eq_self.mpr]
      intro s hs
      rcases List.mem_cons.mp hs with rfl | hmem
      · exact decide_eq_true hlt
      · exact decide_eq_true (lt_of_lt_of_le hlt (ht s hmem))

/-! ## Any run -/

/-- The queue is the end of what was written. -/
theorem queue_suffix (es : List (LogEntry τ)) : queue es <:+ stamps es := by
  induction es using List.reverseRecOn with
  | nil => exact List.suffix_rfl
  | append_singleton es entry ih =>
    rw [stamps_append]
    cases entry with
    | stamp t =>
      rw [queue_stamp]
      obtain ⟨popped, hpopped⟩ := ih
      exact ⟨popped, by rw [← hpopped, List.append_assoc]; rfl⟩
    | cutoff c =>
      rw [queue_cutoff]
      exact (List.dropWhile_suffix _).trans (by simpa [stamps] using ih)

/-- No survivor is lost. -/
theorem survivors_sublist (es : List (LogEntry τ)) : (survivors es).Sublist (queue es) := by
  induction es using List.reverseRecOn with
  | nil => exact List.Sublist.refl _
  | append_singleton es entry ih =>
    cases entry with
    | stamp t =>
      rw [survivors_stamp, queue_stamp]
      exact ih.append (List.Sublist.refl _)
    | cutoff c =>
      rw [survivors_cutoff, queue_cutoff]
      have hkept := ih.filter fun t => decide (c < t)
      rw [← filter_dropWhile c (queue es)] at hkept
      exact hkept.trans List.filter_sublist

/-- Stamps written in order: nothing but the survivors is kept. -/
theorem queue_eq_survivors {es : List (LogEntry τ)} (h : (stamps es).Pairwise (· ≤ ·)) :
    queue es = survivors es := by
  induction es using List.reverseRecOn with
  | nil => rfl
  | append_singleton es entry ih =>
    rw [stamps_append, List.pairwise_append] at h
    cases entry with
    | stamp t => rw [queue_stamp, survivors_stamp, ih h.1]
    | cutoff c =>
      have hqueue : (queue es).Pairwise (· ≤ ·) := h.1.sublist (queue_suffix es).sublist
      rw [queue_cutoff, survivors_cutoff, dropWhile_eq_filter hqueue, ih h.1]

/-- A cutoff no older than those before it: the survivors are the younger stamps. -/
theorem survivors_eq_filter {es : List (LogEntry τ)} {c : τ}
    (h : ∀ c', .cutoff c' ∈ es → c' ≤ c) :
    survivors (es ++ [.cutoff c]) = (stamps es).filter fun t => c < t := by
  rw [survivors_cutoff]
  induction es using List.reverseRecOn with
  | nil => rfl
  | append_singleton es entry ih =>
    have hes : ∀ c', .cutoff c' ∈ es → c' ≤ c := fun c' hc' => h c' (List.mem_append_left _ hc')
    rw [stamps_append, List.filter_append, ← ih hes]
    cases entry with
    | stamp t => rw [survivors_stamp, List.filter_append]; rfl
    | cutoff c' =>
      have hle : c' ≤ c := h c' (List.mem_append_right _ List.mem_cons_self)
      rw [survivors_cutoff, List.filter_filter]
      have hstamps : stamps [LogEntry.cutoff c'] = [] := rfl
      rw [hstamps, List.filter_nil, List.append_nil]
      refine List.filter_congr fun t _ => ?_
      rcases em (c < t) with hlt | hge
      · simp [hlt, lt_of_le_of_lt hle hlt]
      · simp [hge]

end TrimmedLog

end SmartIDS.Foundation
