import Mathlib.Data.List.Count
import Mathlib.Logic.Function.Basic
set_option autoImplicit false

/-!
# Foundation: selection sampling

Elements of several classes pass one by one, and of each class a fixed number is
to be selected.  An element is taken where all that are left of its class are
wanted, left out where none is wanted, and otherwise `accept` decides, whatever
it looks at.  As long as no more are wanted of a class than are left of it,
exactly the wanted number is selected: that is `count_selected`.
-/

namespace SmartIDS.Foundation.SelectionSampling

variable {κ α : Type}

/-- What the sampler knows between two elements: how many are left of each class,
how many of these are wanted, and how many decisions were left to `accept`. -/
structure Sampler (κ : Type) where
  remaining : κ → ℕ
  quota : κ → ℕ
  drawn : ℕ

/-- Decides from the number of decisions before, the number wanted and the number
left. -/
abbrev Accept : Type := ℕ → ℕ → ℕ → Bool

/-- Whether the next element, of class `k`, is selected. -/
def Sampler.chooses (accept : Accept) (s : Sampler κ) (k : κ) : Bool :=
  if s.quota k = 0 then false
  else if s.remaining k = s.quota k then true
  else accept s.drawn (s.quota k) (s.remaining k)

/-- Whether the decision on the next element is left to `accept`. -/
def Sampler.Draws (s : Sampler κ) (k : κ) : Prop := s.quota k ≠ 0 ∧ s.remaining k ≠ s.quota k

instance (s : Sampler κ) (k : κ) : Decidable (s.Draws k) := inferInstanceAs (Decidable (_ ∧ _))

/-- Only an element that is wanted is selected. -/
theorem Sampler.quota_ne_zero_of_chooses {accept : Accept} {s : Sampler κ} {k : κ}
    (h : s.chooses accept k = true) : s.quota k ≠ 0 := by
  intro hzero
  rw [Sampler.chooses, if_pos hzero] at h
  exact nomatch h

/-- An element is left out only where enough others are left. -/
theorem Sampler.lt_of_not_chooses {accept : Accept} {s : Sampler κ} {k : κ}
    (hle : s.quota k ≤ s.remaining k) (h : s.chooses accept k = false) :
    s.quota k = 0 ∨ s.quota k < s.remaining k := by
  by_cases hzero : s.quota k = 0
  · exact Or.inl hzero
  · by_cases hall : s.remaining k = s.quota k
    · rw [Sampler.chooses, if_neg hzero, if_pos hall] at h
      exact nomatch h
    · exact Or.inr (by omega)

variable [DecidableEq κ]

/-- The sampler behind an element of class `k`. -/
def Sampler.step (accept : Accept) (s : Sampler κ) (k : κ) : Sampler κ where
  remaining := Function.update s.remaining k (s.remaining k - 1)
  quota := Function.update s.quota k (s.quota k - if s.chooses accept k then 1 else 0)
  drawn := s.drawn + if s.Draws k then 1 else 0

/-- The elements, each with whether it is selected. -/
def tag (accept : Accept) (key : α → κ) : Sampler κ → List α → List (α × Bool)
  | _, [] => []
  | s, a :: as => (a, s.chooses accept (key a)) :: tag accept key (s.step accept (key a)) as

/-- The sampler behind a list of elements. -/
def Sampler.run (accept : Accept) (key : α → κ) (s : Sampler κ) (as : List α) : Sampler κ :=
  as.foldl (fun s a => s.step accept (key a)) s

/-- The elements that are selected, in order. -/
def selected (tags : List (α × Bool)) : List α := (tags.filter fun t => t.2).map Prod.fst

/-- The elements that are left out, in order. -/
def rejected (tags : List (α × Bool)) : List α := (tags.filter fun t => !t.2).map Prod.fst

/-- The elements that are left are those of the list, and there are enough of them. -/
def Sampler.Fits (s : Sampler κ) (ks : List κ) : Prop :=
  ∀ k, s.remaining k = ks.count k ∧ s.quota k ≤ s.remaining k

section tags

variable {accept : Accept} {key : α → κ}

@[simp] theorem map_fst_tag (s : Sampler κ) (as : List α) :
    (tag accept key s as).map Prod.fst = as := by
  induction as generalizing s with
  | nil => rfl
  | cons a as ih => rw [tag, List.map_cons, ih]

theorem tag_append (s : Sampler κ) (as bs : List α) :
    tag accept key s (as ++ bs) =
      tag accept key s as ++ tag accept key (s.run accept key as) bs := by
  induction as generalizing s with
  | nil => rfl
  | cons a as ih =>
    rw [List.cons_append, tag, tag, List.cons_append, ih]
    rfl

theorem tag_concat (s : Sampler κ) (as : List α) (a : α) :
    tag accept key s (as ++ [a]) =
      tag accept key s as ++ [(a, (s.run accept key as).chooses accept (key a))] :=
  tag_append s as [a]

theorem run_append (s : Sampler κ) (as bs : List α) :
    s.run accept key (as ++ bs) = (s.run accept key as).run accept key bs := List.foldl_append

@[simp] theorem selected_append (ts us : List (α × Bool)) :
    selected (ts ++ us) = selected ts ++ selected us := by simp [selected]

@[simp] theorem rejected_append (ts us : List (α × Bool)) :
    rejected (ts ++ us) = rejected ts ++ rejected us := by simp [rejected]

@[simp] theorem selected_singleton (a : α) (chosen : Bool) :
    selected [(a, chosen)] = if chosen then [a] else [] := by cases chosen <;> rfl

@[simp] theorem rejected_singleton (a : α) (chosen : Bool) :
    rejected [(a, chosen)] = if chosen then [] else [a] := by cases chosen <;> rfl

/-- Every element is counted once. -/
theorem count_selected_add_count_rejected (key : α → κ) (tags : List (α × Bool)) (k : κ) :
    ((selected tags).map key).count k + ((rejected tags).map key).count k =
      ((tags.map Prod.fst).map key).count k := by
  induction tags with
  | nil => rfl
  | cons t tags ih =>
    obtain ⟨a, chosen⟩ := t
    unfold selected rejected at ih ⊢
    cases chosen <;> simp only [List.filter_cons, List.map_cons, List.count_cons, Bool.not_true,
      Bool.not_false, Bool.false_eq_true, if_true, if_false] <;> omega

end tags

/-! ## The count -/

section counting

variable {s : Sampler κ} {k : κ} {ks : List κ}

theorem Sampler.Fits.remaining_pos (h : s.Fits (k :: ks)) : 0 < s.remaining k := by
  have hk := (h k).1
  rw [List.count_cons_self] at hk
  omega

/-- A class of which all are wanted gives one, and a class of which none is wanted
gives none. -/
theorem Sampler.Fits.step (h : s.Fits (k :: ks)) (accept : Accept) :
    (s.step accept k).Fits ks := by
  intro j
  obtain ⟨hcount, hle⟩ := h j
  rcases eq_or_ne j k with rfl | hne
  · rw [List.count_cons_self] at hcount
    simp only [Sampler.step, Function.update_self]
    refine ⟨by omega, ?_⟩
    cases hchosen : s.chooses accept j with
    | true =>
      rw [if_pos rfl]
      omega
    | false =>
      rw [if_neg Bool.false_ne_true]
      have := Sampler.lt_of_not_chooses hle hchosen
      omega
  · rw [List.count_cons_of_ne hne.symm] at hcount
    simp only [Sampler.step, Function.update_of_ne hne]
    exact ⟨hcount, hle⟩

theorem Sampler.Fits.run {key : α → κ} {as bs : List α} (h : s.Fits ((as ++ bs).map key))
    (accept : Accept) : (s.run accept key as).Fits (bs.map key) := by
  induction as generalizing s with
  | nil => exact h
  | cons a as ih => exact ih (Sampler.Fits.step (k := key a) h accept)

/-- Of every class as many are selected as were wanted. -/
theorem count_selected {key : α → κ} {as : List α} (h : s.Fits (as.map key)) (accept : Accept)
    (k : κ) :
    ((selected (tag accept key s as)).map key).count k = s.quota k := by
  induction as generalizing s with
  | nil =>
    obtain ⟨hcount, hle⟩ := h k
    rw [List.map_nil, List.count_nil] at hcount
    have hnone : ((selected (tag accept key s ([] : List α))).map key).count k = 0 := rfl
    omega
  | cons a as ih =>
    have hstep := ih (h.step accept)
    have hcons : ((selected (tag accept key s (a :: as))).map key).count k =
        ((selected (tag accept key (s.step accept (key a)) as)).map key).count k +
          if s.chooses accept (key a) ∧ key a = k then 1 else 0 := by
      unfold selected
      rw [tag, List.filter_cons]
      by_cases hchosen : s.chooses accept (key a)
      · rw [if_pos hchosen, List.map_cons, List.map_cons, List.count_cons]
        simp [hchosen]
      · rw [if_neg hchosen]
        simp [hchosen]
    rw [hcons, hstep]
    rcases eq_or_ne k (key a) with rfl | hne
    · simp only [Sampler.step, Function.update_self, and_true]
      split_ifs with hchosen
      · have := Sampler.quota_ne_zero_of_chooses hchosen
        omega
      · omega
    · simp [Sampler.step, Function.update_of_ne hne, hne.symm]

/-- What was wanted is selected or still wanted. -/
theorem Sampler.Fits.quota_run {key : α → κ} {as bs : List α} (h : s.Fits ((as ++ bs).map key))
    (accept : Accept) (k : κ) : (s.run accept key as).quota k + ((selected (tag accept key s as)).map key).count k =
      s.quota k := by
  have hall := count_selected h accept k
  rw [tag_append, selected_append, List.map_append, List.count_append,
    count_selected (h.run accept) accept k] at hall
  omega

end counting

end SmartIDS.Foundation.SelectionSampling
