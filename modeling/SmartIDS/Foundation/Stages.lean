import Mathlib.Data.List.Infix
import SmartIDS.Foundation.Effect
set_option autoImplicit false

/-!
# Foundation: computations under a handler

A computation that runs under a handler fails in two ways: with a failure that
the handler catches, or with one that goes past it.  `Ends` says of a
computation what it has to find to return, and under which condition nothing
goes past the handler; both compose along `>>=`, the condition of a later stage
counting only where the earlier ones returned.
-/

namespace SmartIDS.Foundation

/-- How a computation under a handler fails. -/
inductive Failure (ρ ε : Type) where
  | caught (reason : ρ)
  | uncaught (error : ε)

/-- The result is the one `good` value, a caught failure where there is none, and
an uncaught one where the condition `harmless` fails. -/
inductive Ends {ρ ε α : Type} (good : α → Prop) (harmless : Prop) :
    Except (Failure ρ ε) α → Prop where
  | returns {a : α} (hgood : ∀ b, good b ↔ b = a) (hharmless : harmless) :
      Ends good harmless (.ok a)
  | refuses {reason : ρ} (hgood : ∀ b, ¬ good b) (hharmless : harmless) :
      Ends good harmless (.error (.caught reason))
  | escapes {error : ε} (hharmless : ¬ harmless) : Ends good harmless (.error (.uncaught error))

theorem Ends.congr {ρ ε α : Type} {good good' : α → Prop} {harmless harmless' : Prop}
    {result : Except (Failure ρ ε) α} (h : Ends good harmless result)
    (hgood : ∀ a, good a ↔ good' a) (hharmless : harmless ↔ harmless') :
    Ends good' harmless' result := by
  cases h with
  | returns h₁ h₂ => exact .returns (fun b => (hgood b).symm.trans (h₁ b)) (hharmless.mp h₂)
  | refuses h₁ h₂ => exact .refuses (fun b hb => h₁ b ((hgood b).mpr hb)) (hharmless.mp h₂)
  | escapes h₂ => exact .escapes fun h' => h₂ (hharmless.mpr h')

namespace Effect

variable {ρ ρ' ε σ α β : Type}

/-- Fail in the way the handler catches. -/
def refuse (reason : ρ) : Effect (Failure ρ ε) σ α := ofExcept (.error (.caught reason))

/-- Refuse where the condition holds. -/
def refuseIf (c : Prop) [Decidable c] (reason : ρ) : Effect (Failure ρ ε) σ Unit :=
  if c then refuse reason else pure ()

theorem refuseIf_quiet (c : Prop) [Decidable c] (reason : ρ) (s : σ) :
    (refuseIf c reason s : Except (Failure ρ ε) Unit × σ).2 = s := by
  unfold refuseIf
  split <;> rfl

/-- A computation no failure of which the handler catches. -/
def unguarded (x : Except ε α) : Effect (Failure ρ ε) σ α := ofExcept (x.mapError .uncaught)

/-- Replace the reason of a caught failure. -/
def rewrap (f : ρ → ρ') (x : Effect (Failure ρ ε) σ α) : Effect (Failure ρ' ε) σ α := fun s =>
  match x s with
  | (.ok a, t) => (.ok a, t)
  | (.error (.caught reason), t) => (.error (.caught (f reason)), t)
  | (.error (.uncaught error), t) => (.error (.uncaught error), t)

/-- The handler: a caught failure becomes a value. -/
def handle (x : Effect (Failure ρ ε) σ α) : Effect ε σ (Except ρ α) := fun s =>
  match x s with
  | (.ok a, t) => (.ok (.ok a), t)
  | (.error (.caught reason), t) => (.ok (.error reason), t)
  | (.error (.uncaught error), t) => (.error error, t)

/-! ## Where a computation ends -/

/-- From every state the computation ends as `good` and `harmless` say. -/
def Stage (x : Effect (Failure ρ ε) σ α) (good : α → Prop) (harmless : Prop) : Prop :=
  ∀ s, Ends good harmless (x s).1

namespace Stage

variable {x : Effect (Failure ρ ε) σ α} {good good' : α → Prop} {harmless harmless' : Prop}

theorem congr (h : Stage x good harmless) (hgood : ∀ a, good a ↔ good' a)
    (hharmless : harmless ↔ harmless') : Stage x good' harmless' :=
  fun s => (h s).congr hgood hharmless

theorem pure (a : α) : Stage (Pure.pure a : Effect (Failure ρ ε) σ α) (· = a) True :=
  fun _ => .returns (fun _ => Iff.rfl) trivial

theorem modify (f : σ → σ) :
    Stage (Effect.modify f : Effect (Failure ρ ε) σ Unit) (fun _ => True) True :=
  fun _ => .returns (fun _ => iff_of_true trivial rfl) trivial

theorem refuseIf (c : Prop) [Decidable c] (reason : ρ) :
    Stage (Effect.refuseIf c reason : Effect (Failure ρ ε) σ Unit) (fun _ => ¬ c) True := by
  intro s
  unfold Effect.refuseIf
  split
  next hc => exact .refuses (fun _ hnot => hnot hc) trivial
  next hc => exact .returns (fun _ => iff_of_true hc rfl) trivial

theorem unguarded (y : Except ε α) :
    Stage (Effect.unguarded y : Effect (Failure ρ ε) σ α) (fun a => y = .ok a)
      (∃ a, y = .ok a) := by
  intro s
  cases y with
  | ok a => exact .returns (fun b => by rw [Except.ok.injEq, eq_comm]) ⟨a, rfl⟩
  | error e => exact .escapes fun ⟨_, ha⟩ => nomatch ha

theorem ofExcept (y : Except (Failure ρ ε) α) :
    Stage (Effect.ofExcept y : Effect (Failure ρ ε) σ α) (fun a => y = .ok a)
      (∀ error, y ≠ .error (.uncaught error)) := by
  intro s
  match y with
  | .ok a => exact .returns (fun b => by rw [Except.ok.injEq, eq_comm]) fun _ h => nomatch h
  | .error (.caught reason) => exact .refuses (fun _ h => nomatch h) fun _ h => nomatch h
  | .error (.uncaught error) => exact .escapes fun h => h error rfl

theorem rewrap (f : ρ → ρ') (h : Stage x good harmless) :
    Stage (Effect.rewrap f x) good harmless := by
  intro s
  unfold Effect.rewrap
  have hs := h s
  match hx : x s, hs with
  | (.ok a, t), .returns h₁ h₂ => exact .returns h₁ h₂
  | (.error (.caught reason), t), .refuses h₁ h₂ => exact .refuses h₁ h₂
  | (.error (.uncaught error), t), .escapes h₂ => exact .escapes h₂

/-- A later stage counts where the earlier one returned. -/
theorem bind {f : α → Effect (Failure ρ ε) σ β} {goodAfter : α → β → Prop}
    {harmlessAfter : α → Prop} (hx : Stage x good harmless)
    (hf : ∀ a, good a → Stage (f a) (goodAfter a) (harmlessAfter a)) :
    Stage (x >>= f) (fun b => ∃ a, good a ∧ goodAfter a b)
      (harmless ∧ ∀ a, good a → harmlessAfter a) := by
  intro s
  rw [bind_apply]
  have hs := hx s
  match hxs : x s, hs with
  | (.ok a, t), .returns h₁ h₂ =>
    have hone : ∀ b, (∃ a', good a' ∧ goodAfter a' b) ↔ goodAfter a b := fun b =>
      ⟨fun ⟨a', ha', hb⟩ => (h₁ a').mp ha' ▸ hb, fun hb => ⟨a, (h₁ a).mpr rfl, hb⟩⟩
    have hall : (harmless ∧ ∀ a', good a' → harmlessAfter a') ↔ harmlessAfter a :=
      ⟨fun h => h.2 a ((h₁ a).mpr rfl), fun h => ⟨h₂, fun a' ha' => (h₁ a').mp ha' ▸ h⟩⟩
    have hafter : Stage (f a) (fun b => ∃ a', good a' ∧ goodAfter a' b)
        (harmless ∧ ∀ a', good a' → harmlessAfter a') :=
      (hf a ((h₁ a).mpr rfl)).congr (fun b => (hone b).symm) hall.symm
    exact hafter t
  | (.error (.caught reason), t), .refuses h₁ h₂ =>
    exact .refuses (fun b ⟨a, ha, _⟩ => h₁ a ha) ⟨h₂, fun a ha => absurd ha (h₁ a)⟩
  | (.error (.uncaught error), t), .escapes h₂ => exact .escapes fun h => h₂ h.1

/-- `bind` for a stage without a value. -/
theorem andThen {x : Effect (Failure ρ ε) σ Unit} {y : Effect (Failure ρ ε) σ β}
    {met : Prop} {goodAfter : β → Prop} {harmlessAfter : Prop}
    (hx : Stage x (fun _ => met) harmless) (hy : met → Stage y goodAfter harmlessAfter) :
    Stage (x >>= fun _ => y) (fun b => met ∧ goodAfter b)
      (harmless ∧ (met → harmlessAfter)) :=
  (hx.bind fun _ => hy).congr (fun _ => ⟨fun ⟨_, h⟩ => h, fun h => ⟨(), h⟩⟩)
    (and_congr_right fun _ => ⟨fun h => h (), fun h _ => h⟩)

/-- A value is computed, and refused where it does not meet a condition. -/
theorem check {y : Except ε α} {c : α → Prop} [DecidablePred c] {reason : α → ρ}
    {z : Effect (Failure ρ ε) σ β} {goodAfter : β → Prop} {harmlessAfter : Prop}
    (hz : (∃ a, y = .ok a ∧ ¬ c a) → Stage z goodAfter harmlessAfter) :
    Stage (Effect.unguarded y >>= fun a => Effect.refuseIf (c a) (reason a) >>= fun _ => z)
      (fun b => (∃ a, y = .ok a ∧ ¬ c a) ∧ goodAfter b)
      ((∃ a, y = .ok a) ∧ ((∃ a, y = .ok a ∧ ¬ c a) → harmlessAfter)) := by
  refine congr (bind (unguarded y) fun a ha =>
    andThen (refuseIf (c a) (reason a)) fun hc => hz ⟨a, ha, hc⟩) (fun b => ?_) ?_
  · exact ⟨fun ⟨a, ha, hc, hb⟩ => ⟨⟨a, ha, hc⟩, hb⟩, fun ⟨⟨a, ha, hc⟩, hb⟩ => ⟨a, ha, hc, hb⟩⟩
  · refine and_congr_right fun _ => ⟨fun h ⟨a, ha, hc⟩ => (h a ha).2 hc, fun h a ha => ?_⟩
    exact ⟨trivial, fun hc => h ⟨a, ha, hc⟩⟩

theorem good_of_returns (h : Stage x good harmless) {s : σ} {a : α} (hreturns : (x s).1 = .ok a) :
    good a := by
  have hs := h s
  rw [hreturns] at hs
  cases hs with
  | returns hgood _ => exact (hgood a).mpr rfl

/-! ### Behind the handler -/

/-- Where nothing goes past it, the handler returns. -/
theorem handle_of_harmless (h : Stage x good harmless) (hharmless : harmless) (s : σ) :
    ∃ result t, handle x s = (.ok result, t) ∧ ∀ a, result = .ok a ↔ good a := by
  unfold handle
  have hs := h s
  match hx : x s, hs with
  | (.ok a, t), .returns h₁ _ =>
    exact ⟨_, t, rfl, fun b => by rw [Except.ok.injEq, h₁ b, eq_comm]⟩
  | (.error (.caught reason), t), .refuses h₁ _ =>
    exact ⟨_, t, rfl, fun b => ⟨(nomatch ·), fun hb => absurd hb (h₁ b)⟩⟩
  | (.error (.uncaught error), t), .escapes h₂ => exact absurd hharmless h₂

theorem handle_of_not_harmless (h : Stage x good harmless) (hharmless : ¬ harmless) (s : σ) :
    ∃ error t, handle x s = (.error error, t) := by
  unfold handle
  have hs := h s
  match hx : x s, hs with
  | (.ok a, t), .returns _ h₂ => exact absurd h₂ hharmless
  | (.error (.caught reason), t), .refuses _ h₂ => exact absurd h₂ hharmless
  | (.error (.uncaught error), t), .escapes _ => exact ⟨error, t, rfl⟩

end Stage

/-! ## What a computation logs -/

/-- The computation appends to the log the whole of `entries` where it returns, an
initial part where it does not; what it appends is `Due`. -/
def Logs {τ : Type} (Due : τ → Prop) (x : Effect ε (List τ) α) (entries : List τ) : Prop :=
  ∀ log, ∃ written, written <+: entries ∧ (∀ entry ∈ written, Due entry) ∧
    (x log).2 = log ++ written ∧ ∀ a, (x log).1 = .ok a → written = entries

namespace Logs

variable {τ : Type} {Due : τ → Prop} {x : Effect ε (List τ) α} {entries : List τ}

/-- A computation that leaves the log alone. -/
theorem quiet (h : ∀ log, (x log).2 = log) : Logs Due x [] := fun log =>
  ⟨[], List.prefix_rfl, by simp, by rw [h, List.append_nil], fun _ _ => rfl⟩

theorem append {entry : τ} (h : Due entry) :
    Logs Due (Effect.modify (· ++ [entry]) : Effect ε (List τ) Unit) [entry] := fun _ =>
  ⟨[entry], List.prefix_rfl, by simpa using h, rfl, fun _ _ => rfl⟩

theorem rewrap {x : Effect (Failure ρ ε) (List τ) α} (f : ρ → ρ') (h : Logs Due x entries) :
    Logs Due (Effect.rewrap f x) entries := by
  intro log
  obtain ⟨written, hinitial, hdue, hlog, hwhole⟩ := h log
  refine ⟨written, hinitial, hdue, ?_, fun a ha => ?_⟩
  · rw [← hlog]
    unfold Effect.rewrap
    split <;> simp_all only
  · unfold Effect.rewrap at ha
    split at ha
    next b t hx => exact hwhole b (by rw [hx])
    next => exact nomatch ha
    next => exact nomatch ha

theorem handle {x : Effect (Failure ρ ε) (List τ) α} (h : Logs Due x entries) (log : List τ) :
    ∃ written, written <+: entries ∧ (∀ entry ∈ written, Due entry) ∧
      (Effect.handle x log).2 = log ++ written := by
  obtain ⟨written, hinitial, hdue, hlog, -⟩ := h log
  refine ⟨written, hinitial, hdue, ?_⟩
  rw [← hlog]
  unfold Effect.handle
  split <;> simp_all only

/-- What is logged later may rest on what the stage has found. -/
theorem bind {x : Effect (Failure ρ ε) (List τ) α} {f : α → Effect (Failure ρ ε) (List τ) β}
    {good : α → Prop} {harmless : Prop} {later : List τ} (hx : Logs Due x entries)
    (hstage : Stage x good harmless) (hf : ∀ a, good a → Logs Due (f a) later) :
    Logs Due (x >>= f) (entries ++ later) := by
  intro log
  obtain ⟨written, hinitial, hdue, hlog, hwhole⟩ := hx log
  rw [bind_apply]
  match hxs : x log with
  | (.ok a, t) =>
    rw [hxs] at hlog hwhole
    obtain rfl : written = entries := hwhole a rfl
    have hgood : good a := hstage.good_of_returns (by rw [hxs])
    obtain ⟨written', hinitial', hdue', hlog', hwhole'⟩ := hf a hgood t
    obtain rfl : t = log ++ written := hlog
    refine ⟨written ++ written', (List.prefix_append_right_inj written).mpr hinitial', ?_, ?_, ?_⟩
    · intro entry hentry
      exact (List.mem_append.mp hentry).elim (hdue entry) (hdue' entry)
    · rw [← List.append_assoc]
      exact hlog'
    · intro b hb
      rw [hwhole' b hb]
  | (.error e, t) =>
    rw [hxs] at hlog
    exact ⟨written, hinitial.trans (List.prefix_append _ _), hdue, hlog, fun _ hb => nomatch hb⟩

/-- A stage that logs nothing itself. -/
theorem after {x : Effect (Failure ρ ε) (List τ) α} {f : α → Effect (Failure ρ ε) (List τ) β}
    {good : α → Prop} {harmless : Prop} (hquiet : ∀ log, (x log).2 = log)
    (hstage : Stage x good harmless) (hf : ∀ a, good a → Logs Due (f a) entries) :
    Logs Due (x >>= f) entries := bind (quiet hquiet) hstage hf

end Logs

end Effect

end SmartIDS.Foundation
