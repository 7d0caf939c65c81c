import Mathlib.Data.List.Basic
set_option autoImplicit false

/-!
# Python: `queue.Queue`

A first-in-first-out queue between threads.  Its operations hold the queue's lock,
so each is one step.  A positive `maxsize` bounds it, zero leaves it unbounded.
-/

namespace SmartIDS.Python

/-- `queue.Queue`; the bound is part of the type. -/
structure BoundedQueue (α : Type) where
  maxsize : ℕ
  items : List α
  bounded : 0 < maxsize → items.length ≤ maxsize

namespace BoundedQueue

variable {α : Type}

/-- `Queue(maxsize)`. -/
def init (maxsize : ℕ) : BoundedQueue α := ⟨maxsize, [], fun _ => Nat.zero_le _⟩

/-- `qsize`. -/
def qsize (q : BoundedQueue α) : ℕ := q.items.length

/-- There is no room for one item more. -/
def IsFull (q : BoundedQueue α) : Prop := 0 < q.maxsize ∧ q.maxsize ≤ q.qsize

instance (q : BoundedQueue α) : Decidable q.IsFull :=
  inferInstanceAs (Decidable (0 < q.maxsize ∧ q.maxsize ≤ q.qsize))

theorem length_concat_le {q : BoundedQueue α} (h : ¬ q.IsFull) (x : α) (hmax : 0 < q.maxsize) :
    (q.items ++ [x]).length ≤ q.maxsize := by
  rw [List.length_append, List.length_singleton]
  unfold IsFull qsize at h
  omega

/-- `put_nowait`; `none` stands for `Full`. -/
def putNowait (x : α) (q : BoundedQueue α) : Option (BoundedQueue α) :=
  if h : q.IsFull then none
  else some { q with items := q.items ++ [x], bounded := length_concat_le h x }

theorem length_tail_le {q : BoundedQueue α} {x : α} {rest : List α} (h : q.items = x :: rest)
    (hmax : 0 < q.maxsize) : rest.length ≤ q.maxsize := by
  have hbound := q.bounded hmax
  rw [h, List.length_cons] at hbound
  omega

/-- `get`; `none` while the caller waits for an item. -/
def get (q : BoundedQueue α) : Option (α × BoundedQueue α) :=
  match h : q.items with
  | [] => none
  | x :: rest => some (x, { q with items := rest, bounded := length_tail_le h })

theorem items_of_putNowait {x : α} {q q' : BoundedQueue α} (h : q.putNowait x = some q') :
    q'.items = q.items ++ [x] ∧ q'.maxsize = q.maxsize := by
  unfold putNowait at h
  split_ifs at h with hfull
  rw [← Option.some.inj h]
  exact ⟨rfl, rfl⟩

theorem items_of_get {x : α} {q q' : BoundedQueue α} (h : q.get = some (x, q')) :
    q.items = x :: q'.items ∧ q'.maxsize = q.maxsize := by
  unfold get at h
  split at h
  · exact absurd h.symm (Option.some_ne_none _)
  · rename_i y rest hitems
    obtain ⟨rfl, rfl⟩ := Prod.mk.inj (Option.some.inj h)
    exact ⟨hitems, rfl⟩

end BoundedQueue

end SmartIDS.Python
