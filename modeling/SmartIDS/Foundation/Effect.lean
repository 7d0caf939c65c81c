import Mathlib.Data.List.Basic
set_option autoImplicit false

/-!
# Foundation: computations that write a state and may raise

The methods of the engine change objects in place and may raise half way.  An
`Effect` is such a computation; its defining property is that whatever was
written before a raise stays written.  `bind_apply` is the one equation that
says so, and the rules for `Ensures` prove that a computation returns, together
with what it leaves behind.
-/

namespace SmartIDS.Foundation

/-- A computation over states `σ` that returns an `α` or raises an `ε`. -/
def Effect (ε σ α : Type) : Type := σ → Except ε α × σ

namespace Effect

variable {ε σ τ α β : Type}

instance : Monad (Effect ε σ) where
  pure a := fun s => (.ok a, s)
  bind x f := fun s =>
    match x s with
    | (.ok a, t) => f a t
    | (.error e, t) => (.error e, t)

/-- Read the state. -/
def get : Effect ε σ σ := fun s => (.ok s, s)

/-- Write the state. -/
def modify (f : σ → σ) : Effect ε σ Unit := fun s => (.ok (), f s)

/-- Run a method that reads and writes the state and cannot raise. -/
def state (f : σ → α × σ) : Effect ε σ α := fun s => (.ok (f s).1, (f s).2)

/-- Return a value or raise, without touching the state. -/
def ofExcept (x : Except ε α) : Effect ε σ α := fun s => (x, s)

/-- Run a computation on one component of a larger state. -/
def zoom (proj : τ → σ) (put : σ → τ → τ) (x : Effect ε σ α) : Effect ε τ α := fun t =>
  ((x (proj t)).1, put (x (proj t)).2 t)

@[simp] theorem pure_apply (a : α) (s : σ) : (pure a : Effect ε σ α) s = (.ok a, s) := rfl

@[simp] theorem get_apply (s : σ) : (get : Effect ε σ σ) s = (.ok s, s) := rfl

@[simp] theorem modify_apply (f : σ → σ) (s : σ) :
    (modify f : Effect ε σ Unit) s = (.ok (), f s) := rfl

@[simp] theorem state_apply (f : σ → α × σ) (s : σ) :
    (state f : Effect ε σ α) s = (.ok (f s).1, (f s).2) := rfl

@[simp] theorem ofExcept_apply (x : Except ε α) (s : σ) :
    (ofExcept x : Effect ε σ α) s = (x, s) := rfl

@[simp] theorem zoom_apply (proj : τ → σ) (put : σ → τ → τ) (x : Effect ε σ α) (t : τ) :
    zoom proj put x t = ((x (proj t)).1, put (x (proj t)).2 t) := rfl

theorem bind_apply (x : Effect ε σ α) (f : α → Effect ε σ β) (s : σ) :
    (x >>= f) s = match x s with
      | (.ok a, t) => f a t
      | (.error e, t) => (.error e, t) := rfl

theorem bind_of_ok {x : Effect ε σ α} {f : α → Effect ε σ β} {s t : σ} {a : α}
    (h : x s = (.ok a, t)) : (x >>= f) s = f a t := by
  rw [bind_apply, h]

theorem bind_of_error {x : Effect ε σ α} {f : α → Effect ε σ β} {s t : σ} {e : ε}
    (h : x s = (.error e, t)) : (x >>= f) s = (.error e, t) := by
  rw [bind_apply, h]

/-- A sequence that returns has its first part returned. -/
theorem returns_of_bind {x : Effect ε σ α} {f : α → Effect ε σ β} {s u : σ} {b : β}
    (h : (x >>= f) s = (.ok b, u)) : ∃ a t, x s = (.ok a, t) ∧ f a t = (.ok b, u) := by
  rw [bind_apply] at h
  match hx : x s with
  | (.ok a, t) =>
    rw [hx] at h
    exact ⟨a, t, rfl, h⟩
  | (.error e, t) =>
    rw [hx] at h
    exact nomatch h

theorem forM_cons_of_ok {g : α → Effect ε σ PUnit} {a : α} (as : List α) {s t : σ}
    (h : g a s = (.ok ⟨⟩, t)) : (a :: as).forM g s = as.forM g t :=
  bind_of_ok (f := fun _ => as.forM g) h

theorem forM_cons_of_error {g : α → Effect ε σ PUnit} {a : α} (as : List α) {s t : σ} {e : ε}
    (h : g a s = (.error e, t)) : (a :: as).forM g s = (.error e, t) :=
  bind_of_error (f := fun _ => as.forM g) h

/-- A loop over a concatenation is the two loops one after the other. -/
theorem forM_append {g : α → Effect ε σ PUnit} (as bs : List α) :
    (as ++ bs).forM g = as.forM g >>= fun _ => bs.forM g := by
  funext s
  induction as generalizing s with
  | nil => rfl
  | cons a as ih =>
    cases h : g a s with
    | mk result t =>
      cases result with
      | ok u =>
        rw [List.cons_append, forM_cons_of_ok _ h, ih, bind_apply, bind_apply,
          forM_cons_of_ok as h]
      | error e =>
        rw [List.cons_append, forM_cons_of_error _ h, bind_apply, forM_cons_of_error as h]

/-- Loops over the parts of a list, in turn, are one loop over the list. -/
theorem forM_flatten {g : α → Effect ε σ PUnit} (ass : List (List α)) :
    ass.forM (fun as => as.forM g) = ass.flatten.forM g := by
  induction ass with
  | nil => rfl
  | cons as ass ih =>
    rw [List.flatten_cons, forM_append, ← ih]
    rfl

theorem forM_map {g : β → Effect ε σ PUnit} (f : α → β) (as : List α) :
    (as.map f).forM g = as.forM fun a => g (f a) := by
  induction as with
  | nil => rfl
  | cons a as ih =>
    show (g (f a) >>= fun _ => (as.map f).forM g) = _
    rw [ih]
    rfl

/-! ## Total correctness -/

/-- From the state `s`, `x` returns, and what it returns and leaves meets `Q`. -/
def Ensures (x : Effect ε σ α) (s : σ) (Q : α → σ → Prop) : Prop :=
  ∃ a t, x s = (.ok a, t) ∧ Q a t

namespace Ensures

variable {s : σ} {Q R : α → σ → Prop}

theorem mono {x : Effect ε σ α} (h : Ensures x s Q) (hle : ∀ a t, Q a t → R a t) :
    Ensures x s R := by
  obtain ⟨a, t, heq, hQ⟩ := h
  exact ⟨a, t, heq, hle a t hQ⟩

/-- A computation ends in one way, so two facts about its end hold together. -/
theorem and {x : Effect ε σ α} (h : Ensures x s Q) (h' : Ensures x s R) :
    Ensures x s fun a t => Q a t ∧ R a t := by
  obtain ⟨a, t, heq, hQ⟩ := h
  obtain ⟨b, u, heq', hR⟩ := h'
  rw [heq, Prod.mk.injEq, Except.ok.injEq] at heq'
  obtain ⟨rfl, rfl⟩ := heq'
  exact ⟨a, t, heq, hQ, hR⟩

/-- The state a computation leaves, when it is known to return. -/
theorem snd {x : Effect ε σ α} (h : Ensures x s Q) : ∃ a, Q a (x s).2 := by
  obtain ⟨a, t, heq, hQ⟩ := h
  rw [heq]
  exact ⟨a, hQ⟩

theorem pure {a : α} (h : Q a s) : Ensures (Pure.pure a : Effect ε σ α) s Q := ⟨a, s, rfl, h⟩

theorem modify {f : σ → σ} {Q : Unit → σ → Prop} (h : Q () (f s)) :
    Ensures (Effect.modify f : Effect ε σ Unit) s Q := ⟨(), f s, rfl, h⟩

theorem state {f : σ → α × σ} (h : Q (f s).1 (f s).2) :
    Ensures (Effect.state f : Effect ε σ α) s Q := ⟨(f s).1, (f s).2, rfl, h⟩

theorem zoom {proj : τ → σ} {put : σ → τ → τ} {x : Effect ε σ α} {t : τ} {Q : α → τ → Prop}
    (h : Ensures x (proj t) fun a r => Q a (put r t)) : Ensures (Effect.zoom proj put x) t Q := by
  obtain ⟨a, r, heq, hQ⟩ := h
  exact ⟨a, put r t, by rw [zoom_apply, heq], hQ⟩

theorem bind {x : Effect ε σ α} {g : α → Effect ε σ β} {Q : β → σ → Prop}
    (h : Ensures x s fun a t => Ensures (g a) t Q) : Ensures (x >>= g) s Q := by
  obtain ⟨a, t, heq, b, u, hg, hQ⟩ := h
  exact ⟨b, u, by rw [bind_of_ok heq, hg], hQ⟩

end Ensures

/-! ## Invariants -/

/-- Whether it returns or raises, `x` keeps the invariant. -/
def Keeps (I : σ → Prop) (x : Effect ε σ α) : Prop := ∀ s, I s → I (x s).2

namespace Keeps

variable {I : σ → Prop}

theorem pure (a : α) : Keeps I (Pure.pure a : Effect ε σ α) := fun _ h => h

theorem get : Keeps I (Effect.get : Effect ε σ σ) := fun _ h => h

theorem ofExcept (x : Except ε α) : Keeps I (Effect.ofExcept x : Effect ε σ α) := fun _ h => h

theorem modify {f : σ → σ} (h : ∀ s, I s → I (f s)) :
    Keeps I (Effect.modify f : Effect ε σ Unit) := h

theorem state {f : σ → α × σ} (h : ∀ s, I s → I (f s).2) :
    Keeps I (Effect.state f : Effect ε σ α) := h

theorem zoom {I : τ → Prop} {J : σ → Prop} {proj : τ → σ} {put : σ → τ → τ} {x : Effect ε σ α}
    (hx : Keeps J x) (hproj : ∀ t, I t → J (proj t)) (hput : ∀ s t, I t → J s → I (put s t)) :
    Keeps I (Effect.zoom proj put x) :=
  fun t h => hput _ t h (hx _ (hproj t h))

theorem bind {x : Effect ε σ α} {f : α → Effect ε σ β} (hx : Keeps I x) (hf : ∀ a, Keeps I (f a)) :
    Keeps I (x >>= f) := by
  intro s h
  have ht := hx s h
  rw [bind_apply]
  rcases hcall : x s with ⟨result, t⟩
  rw [hcall] at ht
  cases result with
  | ok a => exact hf a t ht
  | error e => exact ht

theorem forM {g : α → Effect ε σ PUnit} {as : List α} (h : ∀ a ∈ as, Keeps I (g a)) :
    Keeps I (as.forM g) := by
  induction as with
  | nil => exact fun _ hs => hs
  | cons a as ih =>
    obtain ⟨ha, has⟩ := List.forall_mem_cons.mp h
    exact bind ha fun _ => ih has

end Keeps

/-! ## Two computations on related states -/

/-- On these states the computations come to the same result and leave related states. -/
structure Agree (R : σ → τ → Prop) (x : Effect ε σ α) (y : Effect ε τ α) (s : σ) (t : τ) :
    Prop where
  result : (x s).1 = (y t).1
  left : R (x s).2 (y t).2

namespace Agree

variable {R : σ → τ → Prop} {s : σ} {t : τ}

theorem pure (h : R s t) (a : α) :
    Agree R (Pure.pure a : Effect ε σ α) (Pure.pure a : Effect ε τ α) s t := ⟨rfl, h⟩

theorem modify {f : σ → σ} {g : τ → τ} (h : R (f s) (g t)) :
    Agree R (Effect.modify f : Effect ε σ Unit) (Effect.modify g : Effect ε τ Unit) s t := ⟨rfl, h⟩

theorem ofExcept (h : R s t) (x : Except ε α) :
    Agree R (Effect.ofExcept x : Effect ε σ α) (Effect.ofExcept x : Effect ε τ α) s t := ⟨rfl, h⟩

/-- What is read may differ. -/
theorem get_bind {f : σ → Effect ε σ α} {g : τ → Effect ε τ α} (h : Agree R (f s) (g t) s t) :
    Agree R (Effect.get >>= f) (Effect.get >>= g) s t := ⟨h.result, h.left⟩

theorem bind {x : Effect ε σ α} {y : Effect ε τ α} {f : α → Effect ε σ β} {g : α → Effect ε τ β}
    (h : Agree R x y s t) (hnext : ∀ a s' t', R s' t' → Agree R (f a) (g a) s' t') :
    Agree R (x >>= f) (y >>= g) s t := by
  obtain ⟨hresult, hleft⟩ := h
  rcases hx : x s with ⟨result, s'⟩
  rcases hy : y t with ⟨result', t'⟩
  rw [hx, hy] at hresult hleft
  obtain rfl : result = result' := hresult
  cases result with
  | ok a =>
    have h := hnext a s' t' hleft
    constructor
    · rw [bind_of_ok hx, bind_of_ok hy]
      exact h.result
    · rw [bind_of_ok hx, bind_of_ok hy]
      exact h.left
  | error e =>
    constructor
    · rw [bind_of_error hx, bind_of_error hy]
    · rw [bind_of_error hx, bind_of_error hy]
      exact hleft

end Agree

end Effect

end SmartIDS.Foundation
