import Mathlib.Data.List.Basic
import Mathlib.Data.List.Forall2
import Mathlib.Data.List.Induction
set_option autoImplicit false

/-!
# Foundation: deterministic machines and the rules for their runs

A machine consumes inputs one at a time; each input moves the state and emits an
output.  Everything a component does over its lifetime is a run of such a
machine, so the inductions over runs are stated here once:

* `exec_history`: an invariant that may speak of the inputs consumed so far;
* `always_of_guarded`: an invariant kept by the steps that meet a guard;
* `trace_eq_alongPrefixes_iff`: the outputs are those of a function of the
  history exactly when every single output is;
* `exec_related`, `trace_related`: two machines moving in lockstep.
-/

namespace SmartIDS.Foundation

/-- A deterministic machine over states `σ`, inputs `ι` and outputs `ο`. -/
structure Machine (σ ι ο : Type) where
  /-- One step: the next state and the output. -/
  step : σ → ι → σ × ο

namespace Machine

variable {σ ι ο : Type}

/-- The state after a list of inputs. -/
def exec (m : Machine σ ι ο) : σ → List ι → σ
  | s, [] => s
  | s, i :: is => m.exec (m.step s i).1 is

/-- The outputs emitted along a list of inputs. -/
def trace (m : Machine σ ι ο) : σ → List ι → List ο
  | _, [] => []
  | s, i :: is => (m.step s i).2 :: m.trace (m.step s i).1 is

@[simp] theorem exec_nil (m : Machine σ ι ο) (s : σ) : m.exec s [] = s := rfl

@[simp] theorem exec_cons (m : Machine σ ι ο) (s : σ) (i : ι) (is : List ι) :
    m.exec s (i :: is) = m.exec (m.step s i).1 is := rfl

theorem exec_append (m : Machine σ ι ο) (s : σ) (is js : List ι) :
    m.exec s (is ++ js) = m.exec (m.exec s is) js := by
  induction is generalizing s with
  | nil => rfl
  | cons i is ih => exact ih (m.step s i).1

theorem exec_concat (m : Machine σ ι ο) (s : σ) (is : List ι) (i : ι) :
    m.exec s (is ++ [i]) = (m.step (m.exec s is) i).1 := by
  rw [exec_append]
  rfl

@[simp] theorem trace_nil (m : Machine σ ι ο) (s : σ) : m.trace s [] = [] := rfl

@[simp] theorem trace_cons (m : Machine σ ι ο) (s : σ) (i : ι) (is : List ι) :
    m.trace s (i :: is) = (m.step s i).2 :: m.trace (m.step s i).1 is := rfl

theorem trace_append (m : Machine σ ι ο) (s : σ) (is js : List ι) :
    m.trace s (is ++ js) = m.trace s is ++ m.trace (m.exec s is) js := by
  induction is generalizing s with
  | nil => rfl
  | cons i is ih => simp only [List.cons_append, trace_cons, exec_cons, ih]

theorem trace_concat (m : Machine σ ι ο) (s : σ) (is : List ι) (i : ι) :
    m.trace s (is ++ [i]) = m.trace s is ++ [(m.step (m.exec s is) i).2] := by
  rw [trace_append]
  rfl

@[simp] theorem length_trace (m : Machine σ ι ο) (s : σ) (is : List ι) :
    (m.trace s is).length = is.length := by
  induction is generalizing s with
  | nil => rfl
  | cons i is ih => simp only [trace_cons, List.length_cons, ih]

/-! ## Invariants -/

/-- The history rule.  The invariant sees the inputs consumed so far; the
induction is on the inputs, taken from the last one backwards. -/
theorem exec_history (m : Machine σ ι ο) {Inv : List ι → σ → Prop} {s : σ}
    (hinit : Inv [] s)
    (hstep : ∀ h i t, Inv h t → Inv (h ++ [i]) (m.step t i).1) (is : List ι) :
    Inv is (m.exec s is) := by
  induction is using List.reverseRecOn with
  | nil => exact hinit
  | append_singleton is i ih =>
    rw [exec_concat]
    exact hstep is i _ ih

/-- `P` holds in every state the run passes through, the first and the last
included. -/
def Always (m : Machine σ ι ο) (P : σ → Prop) : σ → List ι → Prop
  | s, [] => P s
  | s, i :: is => P s ∧ m.Always P (m.step s i).1 is

/-- Every step of the run is taken from a state and on an input that meet `G`. -/
def Guarded (m : Machine σ ι ο) (G : σ → ι → Prop) : σ → List ι → Prop
  | _, [] => True
  | s, i :: is => G s i ∧ m.Guarded G (m.step s i).1 is

/-- A run on inputs that meet the guard in every state. -/
theorem guarded_of_forall (m : Machine σ ι ο) {G : σ → ι → Prop} {is : List ι}
    (h : ∀ i ∈ is, ∀ s, G s i) (s : σ) : m.Guarded G s is := by
  induction is generalizing s with
  | nil => trivial
  | cons i is ih =>
    rw [List.forall_mem_cons] at h
    exact ⟨h.1 s, ih h.2 (m.step s i).1⟩

instance decidableGuarded (m : Machine σ ι ο) (G : σ → ι → Prop) [∀ s i, Decidable (G s i)] :
    ∀ (s : σ) (is : List ι), Decidable (m.Guarded G s is)
  | _, [] => inferInstanceAs (Decidable True)
  | s, i :: is =>
    have := decidableGuarded m G (m.step s i).1 is
    inferInstanceAs (Decidable (G s i ∧ m.Guarded G (m.step s i).1 is))

/-- `Always` read at an arbitrary point of the run. -/
theorem always_iff (m : Machine σ ι ο) (P : σ → Prop) (s : σ) (is : List ι) :
    m.Always P s is ↔ ∀ pre suf, is = pre ++ suf → P (m.exec s pre) := by
  induction is generalizing s with
  | nil =>
    constructor
    · intro h pre suf hsplit
      obtain ⟨rfl, rfl⟩ := List.append_eq_nil_iff.mp hsplit.symm
      exact h
    · intro h
      exact h [] [] rfl
  | cons i is ih =>
    rw [Always, ih]
    constructor
    · rintro ⟨hs, hrest⟩ pre suf hsplit
      cases pre with
      | nil => exact hs
      | cons j pre =>
        obtain ⟨rfl, hsplit'⟩ := List.cons_eq_cons.mp hsplit
        exact hrest pre suf hsplit'
    · intro h
      refine ⟨h [] (i :: is) rfl, ?_⟩
      intro pre suf hsplit
      exact h (i :: pre) suf (by rw [hsplit]; rfl)

/-- `Guarded` read at an arbitrary step of the run. -/
theorem guarded_iff (m : Machine σ ι ο) (G : σ → ι → Prop) (s : σ) (is : List ι) :
    m.Guarded G s is ↔ ∀ pre i suf, is = pre ++ i :: suf → G (m.exec s pre) i := by
  induction is generalizing s with
  | nil =>
    refine ⟨fun _ pre i suf hsplit => ?_, fun _ => trivial⟩
    simp at hsplit
  | cons j is ih =>
    rw [Guarded, ih]
    constructor
    · rintro ⟨hs, hrest⟩ pre i suf hsplit
      cases pre with
      | nil =>
        obtain ⟨rfl, -⟩ := List.cons_eq_cons.mp hsplit
        exact hs
      | cons k pre =>
        obtain ⟨rfl, hsplit'⟩ := List.cons_eq_cons.mp hsplit
        exact hrest pre i suf hsplit'
    · intro h
      refine ⟨h [] j is rfl, ?_⟩
      intro pre i suf hsplit
      exact h (j :: pre) i suf (by rw [hsplit]; rfl)

/-- An invariant kept by the guarded steps holds throughout a guarded run. -/
theorem always_of_guarded (m : Machine σ ι ο) {Inv : σ → Prop} {G : σ → ι → Prop}
    (hstep : ∀ t i, Inv t → G t i → Inv (m.step t i).1) {s : σ} {is : List ι}
    (hinit : Inv s) (hguard : m.Guarded G s is) : m.Always Inv s is := by
  induction is generalizing s with
  | nil => exact hinit
  | cons i is ih => exact ⟨hinit, ih (hstep s i hinit hguard.1) hguard.2⟩

/-- Along a guarded run every step does what the steps from a good state under
the guard do. -/
theorem guarded_of_guarded (m : Machine σ ι ο) {Inv : σ → Prop} {G H : σ → ι → Prop}
    (hstep : ∀ t i, Inv t → G t i → Inv (m.step t i).1 ∧ H t i) {s : σ} {is : List ι}
    (hinit : Inv s) (hguard : m.Guarded G s is) : m.Guarded H s is := by
  induction is generalizing s with
  | nil => trivial
  | cons i is ih =>
    obtain ⟨hinv, hstep'⟩ := hstep s i hinit hguard.1
    exact ⟨hstep', ih hinv hguard.2⟩

theorem guarded_append (m : Machine σ ι ο) (G : σ → ι → Prop) (s : σ) (is js : List ι) :
    m.Guarded G s (is ++ js) ↔ m.Guarded G s is ∧ m.Guarded G (m.exec s is) js := by
  induction is generalizing s with
  | nil => simp [Guarded]
  | cons i is ih =>
    rw [List.cons_append, Guarded, ih, Guarded, exec_cons, and_assoc]

/-- Where a single step from a good state ends well exactly when it meets the
guard, a run stays good exactly when all of its steps meet the guard.  What
every step keeps may be used of the states. -/
theorem always_iff_guarded_under (m : Machine σ ι ο) {K Inv : σ → Prop} {G : σ → ι → Prop}
    (hkept : ∀ t i, K t → K (m.step t i).1)
    (hstep : ∀ t i, K t → Inv t → (Inv (m.step t i).1 ↔ G t i)) {s : σ} {is : List ι}
    (hs : K s) (hinit : Inv s) : m.Always Inv s is ↔ m.Guarded G s is := by
  induction is generalizing s with
  | nil => exact ⟨fun _ => trivial, fun _ => hinit⟩
  | cons i is ih =>
    constructor
    · rintro ⟨-, hrest⟩
      have hnext : Inv (m.step s i).1 := by
        cases is with
        | nil => exact hrest
        | cons j js => exact hrest.1
      exact ⟨(hstep s i hs hinit).mp hnext, (ih (hkept s i hs) hnext).mp hrest⟩
    · rintro ⟨hG, hrest⟩
      have hnext : Inv (m.step s i).1 := (hstep s i hs hinit).mpr hG
      exact ⟨hinit, (ih (hkept s i hs) hnext).mpr hrest⟩

/-! ## Outputs as a function of the history -/

/-- Evaluate `f` at every input, together with the inputs before it. -/
def alongPrefixes (f : List ι → ι → ο) : List ι → List ι → List ο
  | _, [] => []
  | h, i :: is => f h i :: alongPrefixes f (h ++ [i]) is

theorem alongPrefixes_append (f : List ι → ι → ο) (h is js : List ι) :
    alongPrefixes f h (is ++ js) = alongPrefixes f h is ++ alongPrefixes f (h ++ is) js := by
  induction is generalizing h with
  | nil => simp [alongPrefixes]
  | cons i is ih => simp [alongPrefixes, ih]

theorem alongPrefixes_concat (f : List ι → ι → ο) (is : List ι) (i : ι) :
    alongPrefixes f [] (is ++ [i]) = alongPrefixes f [] is ++ [f is i] := by
  simp [alongPrefixes_append, alongPrefixes]

/-- The outputs of a run are those of `f` exactly when each of them is. -/
theorem trace_eq_alongPrefixes_iff (m : Machine σ ι ο) (f : List ι → ι → ο) (s : σ)
    (is : List ι) :
    m.trace s is = alongPrefixes f [] is ↔
      ∀ pre i suf, is = pre ++ i :: suf → (m.step (m.exec s pre) i).2 = f pre i := by
  have general : ∀ (rest h : List ι), m.trace (m.exec s h) rest = alongPrefixes f h rest ↔
      ∀ pre i suf, rest = pre ++ i :: suf →
        (m.step (m.exec s (h ++ pre)) i).2 = f (h ++ pre) i := by
    intro rest
    induction rest with
    | nil => intro h; simp [alongPrefixes]
    | cons j rest ih =>
      intro h
      have hexec : (m.step (m.exec s h) j).1 = m.exec s (h ++ [j]) := (m.exec_concat s h j).symm
      rw [trace_cons, alongPrefixes, List.cons.injEq, hexec, ih]
      constructor
      · rintro ⟨hhead, htail⟩ pre i suf hsplit
        cases pre with
        | nil =>
          obtain ⟨rfl, -⟩ := List.cons_eq_cons.mp hsplit
          simpa using hhead
        | cons k pre =>
          obtain ⟨rfl, hsplit'⟩ := List.cons_eq_cons.mp hsplit
          simpa using htail pre i suf hsplit'
      · intro hall
        refine ⟨by simpa using hall [] j rest rfl, ?_⟩
        intro pre i suf hsplit
        have := hall (j :: pre) i suf (by rw [hsplit]; rfl)
        simpa using this
  exact general is []

/-! ## Two machines in lockstep -/

/-- A relation kept by paired steps relates the final states of paired runs. -/
theorem exec_related {σ₂ ι₂ ο₂ : Type} (m : Machine σ ι ο) (n : Machine σ₂ ι₂ ο₂)
    {R : σ → σ₂ → Prop} {Q : ι → ι₂ → Prop}
    (hstep : ∀ s t i j, R s t → Q i j → R (m.step s i).1 (n.step t j).1)
    {s : σ} {t : σ₂} {is : List ι} {js : List ι₂} (hinit : R s t)
    (hinputs : List.Forall₂ Q is js) : R (m.exec s is) (n.exec t js) := by
  induction hinputs generalizing s t with
  | nil => exact hinit
  | cons hQ _ ih => exact ih (hstep _ _ _ _ hinit hQ)

/-- If moreover paired steps emit related outputs, the traces are related.  The
steps of the first run may be known to meet a guard. -/
theorem trace_related {σ₂ ι₂ ο₂ : Type} (m : Machine σ ι ο) (n : Machine σ₂ ι₂ ο₂)
    {R : σ → σ₂ → Prop} {Q : ι → ι₂ → Prop} {O : ο → ο₂ → Prop} {G : σ → ι → Prop}
    (hstep : ∀ s t i j, R s t → Q i j → G s i →
      R (m.step s i).1 (n.step t j).1 ∧ O (m.step s i).2 (n.step t j).2)
    {s : σ} {t : σ₂} {is : List ι} {js : List ι₂} (hinit : R s t)
    (hinputs : List.Forall₂ Q is js) (hguard : m.Guarded G s is) :
    List.Forall₂ O (m.trace s is) (n.trace t js) := by
  induction hinputs generalizing s t with
  | nil => exact .nil
  | cons hQ _ ih =>
    have h := hstep _ _ _ _ hinit hQ hguard.1
    exact .cons h.2 (ih h.1 hguard.2)

end Machine

end SmartIDS.Foundation
