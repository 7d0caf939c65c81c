import Mathlib.Data.List.DropRight
import SmartIDS.PacketCapture.ReconnectLoop
set_option autoImplicit false

/-!
# PacketCapture: what a successful connection does to the backoff

`_connect_loop` cannot tell a connection that authenticated from one that failed:
`_run_connection` returns or raises in both cases.  Its counter is the number of
connections so far, so the delays start again at the base only for a client
whose first connection was its last good one.
-/

namespace SmartIDS.PacketCapture

open SmartIDS.Foundation SmartIDS.Python

/-! ## Attempts -/

/-- A round of the loop, and whether its connection authenticated.  A connection
that is closed in an orderly way did: `_run_connection` returns behind
`_authenticate` only. -/
structure Attempt where
  authenticated : Bool
  round : Round
  closed : round.ending = .closed → authenticated = true

/-- The consecutive failed attempts since the last authenticated connection. -/
def failuresSince (history : List Attempt) : ℕ :=
  (history.rtakeWhile fun a => !a.authenticated).length

theorem failuresSince_concat_of_authenticated (before : List Attempt) {a : Attempt}
    (h : a.authenticated = true) : failuresSince (before ++ [a]) = 0 := by
  unfold failuresSince
  rw [List.rtakeWhile_concat_neg _ _ _ (by simp [h])]
  rfl

/-- As many failures as there are attempts behind the first one: they all failed. -/
theorem length_le_failuresSince_iff (a : Attempt) (rest : List Attempt) :
    rest.length ≤ failuresSince (a :: rest) ↔ ∀ b ∈ rest, b.authenticated = false := by
  have hsuffix : (a :: rest).rtakeWhile (fun a => !a.authenticated) <:+ a :: rest :=
    List.rtakeWhile_suffix _ _
  constructor
  · intro hlength b hb
    have hrest := List.suffix_of_suffix_length_le (List.suffix_cons a rest) hsuffix hlength
    have hfailed := List.mem_rtakeWhile_imp (hrest.subset hb)
    simpa using hfailed
  · intro hall
    have htake : rest.reverse.takeWhile (fun a => !a.authenticated) = rest.reverse := by
      rw [List.takeWhile_eq_self_iff]
      intro b hb
      simpa using hall b (List.mem_reverse.mp hb)
    unfold failuresSince List.rtakeWhile
    rw [List.reverse_cons, List.takeWhile_append, htake, if_pos rfl, List.length_reverse,
      List.length_append, List.length_reverse]
    exact Nat.le_add_right _ _

/-! ## The delays of a run -/

/-- The delay the loop sleeps for in a round, if it comes to that. -/
def sleepsFor (policy : ReconnectPolicy) (s : LoopState) (r : Round) : Option PyFloat :=
  match s with
  | .connecting attempt =>
    if r.ending = .cancelled ∨ r.stopRequested = true then none
    else (nextBackoffDelay policy r.jitter attempt).toOption
  | _ => none

/-- The loop behind a history of attempts. -/
def loopAfter (policy : ReconnectPolicy) (history : List Attempt) : LoopState :=
  (connectLoop policy).exec (.connecting 0) (history.map Attempt.round)

/-- A loop that goes on has counted the round. -/
theorem eq_of_connectRound {policy : ReconnectPolicy} {s : LoopState} {r : Round} {n : ℕ}
    (h : connectRound policy s r = .connecting n) : ∃ m, s = .connecting m ∧ n = m + 1 := by
  cases s with
  | connecting m =>
    refine ⟨m, rfl, ?_⟩
    obtain ⟨ending, stop, jitter, asleep⟩ := r
    unfold connectRound at h
    cases ending with
    | cancelled => cases h
    | closed =>
      simp only at h
      generalize nextBackoffDelay policy jitter m = computed at h
      cases stop <;> cases computed <;> cases asleep <;> cases h
      rfl
    | failed =>
      simp only at h
      generalize nextBackoffDelay policy jitter m = computed at h
      cases stop <;> cases computed <;> cases asleep <;> cases h
      rfl
  | stopped => cases h
  | cancelled => cases h
  | crashed e => cases h

theorem loopAfter_concat (policy : ReconnectPolicy) (history : List Attempt) (a : Attempt) :
    loopAfter policy (history ++ [a]) =
      connectRound policy (loopAfter policy history) a.round := by
  unfold loopAfter
  rw [List.map_append, List.map_singleton, Machine.exec_concat]
  rfl

theorem loopAfter_eq_connecting {policy : ReconnectPolicy} {history : List Attempt} {n : ℕ}
    (h : loopAfter policy history = .connecting n) : n = history.length := by
  induction history using List.reverseRecOn generalizing n with
  | nil =>
    cases h
    rfl
  | append_singleton history a ih =>
    rw [loopAfter_concat] at h
    obtain ⟨m, hm, rfl⟩ := eq_of_connectRound h
    rw [ih hm, List.length_append, List.length_singleton]

/-- The delay behind an attempt, when it is slept for, is a draw for the number of
attempts before. -/
theorem sleepsFor_eq_some_iff (policy : ReconnectPolicy) (before : List Attempt) (r : Round)
    (delay : PyFloat) :
    sleepsFor policy (loopAfter policy before) r = some delay ↔
      loopAfter policy before = .connecting before.length ∧
        ¬ (r.ending = .cancelled ∨ r.stopRequested = true) ∧ before.length < 1024 ∧
        delay = r.jitter.draw (.pyMin policy.cap (policy.base.scaled before.length)) := by
  cases hloop : loopAfter policy before with
  | connecting n =>
    obtain rfl := loopAfter_eq_connecting hloop
    unfold sleepsFor
    simp only [true_and]
    split_ifs with hends
    · simp [hends]
    · rcases Nat.lt_or_ge before.length 1024 with hlt | hge
      · rw [nextBackoffDelay_of_lt policy r.jitter hlt]
        exact ⟨fun h => ⟨hends, hlt, (Option.some.inj h).symm⟩, fun h => congrArg some h.2.2.symm⟩
      · rw [nextBackoffDelay_of_ge policy r.jitter hge]
        exact iff_of_false (fun h => nomatch h) fun h => absurd h.2.1 (not_lt.mpr hge)
  | stopped => simp [sleepsFor]
  | cancelled => simp [sleepsFor]
  | crashed e => simp [sleepsFor]

/-! ## The restart -/

/-- A delay of at most `min(cap, base * 2 ** k)`. -/
def WithinBackoff (policy : ReconnectPolicy) (k : ℕ) (delay : PyFloat) : Prop :=
  delay ≤ policy.cap ∧ delay ≤ policy.base.scaled k

/-- Whatever is drawn, each delay of the history is within the backoff of the failures
since the last authenticated connection. -/
def BackoffRestarts (policy : ReconnectPolicy) (history : List Attempt) : Prop :=
  ∀ before a after, history = before ++ a :: after → ∀ jitter delay,
    sleepsFor policy (loopAfter policy before) { a.round with jitter } = some delay →
      WithinBackoff policy (failuresSince (before ++ [a])) delay

/-- The draw that always returns its upper end. -/
def Jitter.highest : Jitter where
  draw bound := bound
  draw_mem _ h := ⟨h, (PyFloat.le_total_of_le h h).elim id id⟩

/-- The loop sleeps behind this attempt. -/
def Sleeps (policy : ReconnectPolicy) (before : List Attempt) (a : Attempt) : Prop :=
  (sleepsFor policy (loopAfter policy before) a.round).isSome

theorem sleeps_iff (policy : ReconnectPolicy) (before : List Attempt) (a : Attempt) :
    Sleeps policy before a ↔ loopAfter policy before = .connecting before.length ∧
      ¬ (a.round.ending = .cancelled ∨ a.round.stopRequested = true) ∧ before.length < 1024 := by
  unfold Sleeps
  rw [Option.isSome_iff_exists]
  constructor
  · rintro ⟨delay, hdelay⟩
    obtain ⟨hloop, hgoes, hlt, -⟩ := (sleepsFor_eq_some_iff policy before _ _).mp hdelay
    exact ⟨hloop, hgoes, hlt⟩
  · rintro ⟨hloop, hgoes, hlt⟩
    exact ⟨_, (sleepsFor_eq_some_iff policy before _ _).mpr ⟨hloop, hgoes, hlt, rfl⟩⟩

/-- Every attempt behind the first one has failed, or the cap is reached in any case. -/
def Restarted (policy : ReconnectPolicy) (before : List Attempt) (a : Attempt) : Prop :=
  (∀ b ∈ (before ++ [a]).tail, b.authenticated = false) ∨
    policy.cap ≤ policy.base.scaled (failuresSince (before ++ [a]))

/-- Fewer doublings, a lesser bound. -/
theorem scaled_le_scaled {x : PyFloat} (h : .finite 0 ≤ x) {m n : ℕ} (hle : m ≤ n) :
    x.scaled m ≤ x.scaled n := by
  cases x with
  | finite v =>
    have hv : 0 ≤ v := of_decide_eq_true h
    have hgrows : v * 2 ^ m ≤ v * 2 ^ n :=
      mul_le_mul_of_nonneg_left (pow_le_pow_right₀ (by norm_num) hle) hv
    rw [scaled_of_nonneg hv, scaled_of_nonneg hv]
    split_ifs with hm hn hn
    · rfl
    · exact absurd (hm.trans hgrows) hn
    · rfl
    · exact decide_eq_true hgrows
  | inf => rfl
  | negInf => exact absurd h (by decide)
  | nan => exact absurd h (by decide)

/-- More doublings do not stay within fewer ones, short of an overflow. -/
theorem scaled_eq_inf_of_le {x : PyFloat} {c : ℚ} (hc : 0 < c) (h : .finite c ≤ x) {m n : ℕ}
    (hlt : m < n) (hle : x.scaled n ≤ x.scaled m) : x.scaled m = .inf := by
  cases x with
  | finite v =>
    have hv : 0 < v := hc.trans_le (of_decide_eq_true h)
    have hgrows : v * 2 ^ m < v * 2 ^ n :=
      mul_lt_mul_of_pos_left (pow_lt_pow_right₀ (by norm_num) hlt) hv
    rw [scaled_of_nonneg hv.le, scaled_of_nonneg hv.le] at hle
    rw [scaled_of_nonneg hv.le]
    split_ifs at hle ⊢ with hm hn hn
    · rfl
    · rfl
    · exact absurd hle Bool.false_ne_true
    · exact absurd (of_decide_eq_true hle) (not_le.mpr hgrows)
  | inf => rfl
  | negInf => exact absurd h Bool.false_ne_true
  | nan => exact absurd h Bool.false_ne_true

/-- All draws for attempt number `n` are within the backoff of `k` failures. -/
theorem withinBackoff_iff (policy : ReconnectPolicy) (n k : ℕ) :
    (∀ jitter : Jitter,
        WithinBackoff policy k (jitter.draw (.pyMin policy.cap (policy.base.scaled n)))) ↔
      n ≤ k ∨ policy.cap ≤ policy.base.scaled k := by
  have hbase : .finite 0 ≤ policy.base :=
    PyFloat.le_trans (b := .finite minReconnectBase) (by decide +kernel) policy.le_base
  have hcap : .finite 0 ≤ policy.cap := PyFloat.le_trans hbase policy.base_le_cap
  constructor
  · intro h
    rcases Nat.lt_or_ge k n with hlt | hle
    · right
      have hdraw : PyFloat.pyMin policy.cap (policy.base.scaled n) ≤ policy.base.scaled k :=
        (h .highest).2
      unfold PyFloat.pyMin at hdraw
      split_ifs at hdraw with hscaled
      · rw [scaled_eq_inf_of_le (by decide +kernel) policy.le_base hlt hdraw]
        cases hvalue : policy.cap with
        | nan => rw [hvalue] at hcap; exact absurd hcap (by decide)
        | _ => rfl
      · exact hdraw
    · exact Or.inl hle
  · intro h jitter
    obtain ⟨-, hdrawcap, hdrawn⟩ := delayInRange_draw policy jitter n
    rcases h with hle | hreached
    · exact ⟨hdrawcap, PyFloat.le_trans hdrawn (scaled_le_scaled hbase hle)⟩
    · exact ⟨hdrawcap, PyFloat.le_trans hdrawcap hreached⟩

/-- The delays of a history start again with every authenticated connection exactly if
at each attempt the loop sleeps behind, none but the first attempt has authenticated
so far, or the failures since the last one have reached the cap. -/
theorem backoff_restarts_iff (policy : ReconnectPolicy) (history : List Attempt) :
    BackoffRestarts policy history ↔
      ∀ before a after, history = before ++ a :: after → Sleeps policy before a →
        Restarted policy before a := by
  refine forall_congr' fun before => forall_congr' fun a => forall_congr' fun after =>
    forall_congr' fun _ => ?_
  have hfailed : (∀ b ∈ (before ++ [a]).tail, b.authenticated = false) ↔
      before.length ≤ failuresSince (before ++ [a]) := by
    cases before with
    | nil => exact iff_of_true (fun b hb => absurd hb List.not_mem_nil) (Nat.zero_le _)
    | cons first rest =>
      rw [List.cons_append, List.tail_cons, ← length_le_failuresSince_iff first,
        List.length_append, List.length_singleton]
      rfl
  unfold Restarted
  rw [hfailed, ← withinBackoff_iff, sleeps_iff]
  constructor
  · intro hwithin hsleeps jitter
    exact hwithin jitter _ ((sleepsFor_eq_some_iff policy before _ _).mpr
      ⟨hsleeps.1, hsleeps.2.1, hsleeps.2.2, rfl⟩)
  · intro hwithin jitter delay hdelay
    obtain ⟨hloop, hgoes, hlt, rfl⟩ := (sleepsFor_eq_some_iff policy before _ _).mp hdelay
    exact hwithin ⟨hloop, hgoes, hlt⟩ jitter

/-- A connection that fails, and one that authenticates and is closed. -/
def failedOnce : Attempt := ⟨false, .failure .lowest, ConnectionEnd.noConfusion⟩
def closedOnce : Attempt := ⟨true, ⟨.closed, false, .lowest, false⟩, fun _ => rfl⟩

/-- With the default delays, the first reconnect after a connection that authenticated
may wait two seconds if the connection before it had failed. -/
theorem backoff_carried_over : ¬ BackoffRestarts .default [failedOnce, closedOnce] := by
  intro h
  have hdelay : sleepsFor .default (loopAfter .default [failedOnce])
      { closedOnce.round with jitter := .highest } = some (.finite 2) := by decide +kernel
  have hbound := (h [failedOnce] closedOnce [] rfl .highest (.finite 2) hdelay).2
  rw [failuresSince_concat_of_authenticated _ rfl] at hbound
  exact absurd hbound (by decide +kernel)

end SmartIDS.PacketCapture
