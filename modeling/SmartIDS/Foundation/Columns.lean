import Mathlib.Data.List.Basic
import Mathlib.Logic.Function.Basic
set_option autoImplicit false

/-!
# Foundation: tables kept by columns

A table is a function from column names to columns.  Rows are chosen by a mask,
which is applied to every column; and columns are assigned one after the other, each
from its own old value, so that the order of the assignments does not matter
(`foldl_assign`, `foldlM_assign`).
-/

namespace SmartIDS.Foundation.Columns

variable {α β γ κ ε : Type}

/-! ## Choosing rows -/

/-- The elements the mask keeps. -/
def mask (keep : List Bool) (l : List α) : List α :=
  ((l.zip keep).filter fun pair => pair.2).map Prod.fst

theorem mask_nil (l : List α) : mask [] l = [] := by
  unfold mask
  rw [List.zip_nil_right]
  rfl

theorem mask_cons (b : Bool) (keep : List Bool) (a : α) (l : List α) :
    mask (b :: keep) (a :: l) = if b then a :: mask keep l else mask keep l := by
  cases b <;> rfl

theorem mask_map (f : α → β) (keep : List Bool) (l : List α) :
    mask keep (l.map f) = (mask keep l).map f := by
  induction keep generalizing l with
  | nil => rw [mask_nil, mask_nil, List.map_nil]
  | cons b keep ih =>
    cases l with
    | nil => rfl
    | cons a l =>
      rw [List.map_cons, mask_cons, mask_cons, ih]
      split <;> rfl

/-- The mask of a predicate filters. -/
theorem mask_eq_filter (q : α → Bool) (l : List α) : mask (l.map q) l = l.filter q := by
  induction l with
  | nil => rfl
  | cons a l ih => rw [List.map_cons, mask_cons, List.filter_cons, ih]

theorem length_mask_le (keep : List Bool) (l : List α) : (mask keep l).length ≤ keep.count true := by
  induction keep generalizing l with
  | nil => simp [mask_nil]
  | cons b keep ih =>
    cases l with
    | nil => exact Nat.zero_le _
    | cons a l =>
      rw [mask_cons, List.count_cons]
      cases b with
      | true => simpa using ih l
      | false => simpa using ih l

/-- A mask that keeps every row keeps the columns that are not too long. -/
theorem mask_of_forall {keep : List Bool} (h : ∀ b ∈ keep, b = true) {l : List α}
    (hlength : l.length ≤ keep.length) : mask keep l = l := by
  induction keep generalizing l with
  | nil =>
    rw [mask_nil]
    exact (List.length_eq_zero_iff.mp (Nat.le_zero.mp hlength)).symm
  | cons b keep ih =>
    obtain ⟨hb, hkeep⟩ := List.forall_mem_cons.mp h
    cases l with
    | nil => rfl
    | cons a l =>
      rw [mask_cons, if_pos hb, ih hkeep (Nat.le_of_succ_le_succ hlength)]

/-! ## Assigning columns -/

variable [DecidableEq κ]

/-- Every name on the list is assigned what its old column comes to. -/
theorem foldl_assign (f : κ → β → β) {names : List κ} (hnodup : names.Nodup) (table : κ → β)
    (name : κ) :
    names.foldl (fun table name => Function.update table name (f name (table name))) table name =
      if name ∈ names then f name (table name) else table name := by
  induction names generalizing table with
  | nil => rfl
  | cons first names ih =>
    obtain ⟨hfirst, hrest⟩ := List.nodup_cons.mp hnodup
    rw [List.foldl_cons, ih hrest]
    rcases eq_or_ne name first with rfl | hne
    · rw [if_neg hfirst, if_pos List.mem_cons_self, Function.update_self]
    · simp only [Function.update_of_ne hne, List.mem_cons, hne, false_or]

/-- The same where the new columns are computed by something that may fail, but does not. -/
theorem foldlM_assign {f : κ → β → Except ε γ} {g : κ → β → γ} (k : γ → β) {names : List κ}
    (hnodup : names.Nodup) {table : κ → β}
    (h : ∀ name ∈ names, f name (table name) = .ok (g name (table name))) :
    names.foldlM (fun table name => do
        return Function.update table name (k (← f name (table name)))) table =
      .ok fun name => if name ∈ names then k (g name (table name)) else table name := by
  induction names generalizing table with
  | nil => rfl
  | cons first names ih =>
    obtain ⟨hfirst, hrest⟩ := List.nodup_cons.mp hnodup
    obtain ⟨hhead, htail⟩ := List.forall_mem_cons.mp h
    have hother : ∀ name ∈ names, name ≠ first := fun name hname heq => hfirst (heq ▸ hname)
    rw [List.foldlM_cons, hhead]
    refine (ih hrest fun name hname => ?_).trans (congrArg Except.ok ?_)
    · rw [Function.update_of_ne (hother name hname)]
      exact htail name hname
    · funext name
      rcases eq_or_ne name first with rfl | hne
      · rw [if_neg hfirst, if_pos List.mem_cons_self, Function.update_self]
      · simp only [Function.update_of_ne hne, List.mem_cons, hne, false_or]

theorem bind_of_ok {x : Except ε α} {a : α} (h : x = .ok a) (f : α → Except ε β) :
    (x >>= f) = f a := by
  rw [h]
  rfl

/-- A list is converted element by element. -/
theorem mapM_of_forall_ok {f : α → Except ε β} {g : α → β} {l : List α}
    (h : ∀ a ∈ l, f a = .ok (g a)) : l.mapM f = .ok (l.map g) := by
  induction l with
  | nil => rfl
  | cons a l ih =>
    obtain ⟨ha, hl⟩ := List.forall_mem_cons.mp h
    rw [List.mapM_cons, ha, ih hl]
    rfl

end SmartIDS.Foundation.Columns
