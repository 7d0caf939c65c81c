import Mathlib.Data.List.Forall2
set_option autoImplicit false

/-!
# Foundation: what a computation that returned went through

A computation in `Except` that returns was composed of computations that returned.
-/

namespace SmartIDS.Foundation

variable {ε α β : Type}

/-- Both halves of a sequence returned. -/
theorem bind_eq_ok_iff {x : Except ε α} {f : α → Except ε β} {b : β} :
    x >>= f = .ok b ↔ ∃ a, x = .ok a ∧ f a = .ok b := by
  cases x with
  | error e => simp [bind, Except.bind]
  | ok a => simp [bind, Except.bind]

/-- What `mapM` returns, item by item. -/
theorem forall₂_of_mapM {f : α → Except ε β} {R : β → α → Prop} {l : List α} {ys : List β}
    (h : l.mapM f = .ok ys) (hR : ∀ x ∈ l, ∀ y, f x = .ok y → R y x) : List.Forall₂ R ys l := by
  induction l generalizing ys with
  | nil =>
    obtain rfl : [] = ys := Except.ok.inj h
    exact .nil
  | cons x l ih =>
    rw [List.mapM_cons] at h
    obtain ⟨y, hy, h⟩ := bind_eq_ok_iff.mp h
    obtain ⟨zs, hzs, h⟩ := bind_eq_ok_iff.mp h
    obtain rfl := Except.ok.inj h
    obtain ⟨hhead, htail⟩ := List.forall_mem_cons.mp hR
    exact .cons (hhead y hy) (ih hzs htail)

/-- Where the function returns on every item, so does `mapM`. -/
theorem exists_mapM_eq_ok {f : α → Except ε β} {l : List α} (h : ∀ x ∈ l, ∃ y, f x = .ok y) :
    ∃ ys, l.mapM f = .ok ys := by
  induction l with
  | nil => exact ⟨[], rfl⟩
  | cons x l ih =>
    obtain ⟨⟨y, hy⟩, hl⟩ := List.forall_mem_cons.mp h
    obtain ⟨ys, hys⟩ := ih hl
    exact ⟨y :: ys, by rw [List.mapM_cons, hy, hys]; rfl⟩

end SmartIDS.Foundation
