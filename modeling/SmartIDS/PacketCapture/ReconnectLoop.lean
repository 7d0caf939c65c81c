import SmartIDS.Foundation.Machine
import SmartIDS.Python.Value
set_option autoImplicit false

/-!
# Packet capture: the reconnect loop of the engine's WebSocket client

`_connect_loop` runs one connection after the other on a thread of its own.  A
failed connection is caught; the delay before the next one is computed outside
the `try`, from an attempt counter that only ever grows.  The multiplication in
`_next_backoff_delay` converts `2 ** attempt` to a double before the cap is
applied, so the counter decides how long the thread lives.
-/

namespace SmartIDS.PacketCapture

open SmartIDS.Foundation SmartIDS.Python

/-! ## The delay -/

/-- The double nearest to `0.1`. -/
def minReconnectBase : ℚ := 3602879701896397 / 36028797018963968

/-- The two settings `__init__` stores: whatever it is given, the base is at
least `0.1` and the cap at least the base. -/
structure ReconnectPolicy where
  base : PyFloat
  cap : PyFloat
  le_base : .finite minReconnectBase ≤ base
  base_le_cap : base ≤ cap

namespace ReconnectPolicy

/-- The part of `EngineWSClient.__init__` that sets the delays. -/
def init (reconnectBaseSeconds reconnectCapSeconds : PyFloat) : ReconnectPolicy where
  base := .pyMax (.finite minReconnectBase) reconnectBaseSeconds
  cap := .pyMax (.pyMax (.finite minReconnectBase) reconnectBaseSeconds) reconnectCapSeconds
  le_base := PyFloat.le_pyMax_left (by decide +kernel)
  base_le_cap := by
    refine PyFloat.le_pyMax_left ?_
    have hle : .finite minReconnectBase ≤
        PyFloat.pyMax (.finite minReconnectBase) reconnectBaseSeconds :=
      PyFloat.le_pyMax_left (by decide +kernel)
    exact (PyFloat.le_total_of_le hle hle).elim id id

/-- The defaults of the constructor. -/
def default : ReconnectPolicy := init (.finite 1) (.finite 60)

end ReconnectPolicy

/-- One call of `random.uniform(0, bound)`. -/
structure Jitter where
  draw : PyFloat → PyFloat
  draw_mem : ∀ bound, .finite 0 ≤ bound → .finite 0 ≤ draw bound ∧ draw bound ≤ bound

/-- The draw that always returns its lower end. -/
def Jitter.lowest : Jitter where
  draw _ := .finite 0
  draw_mem _ h := ⟨by decide +kernel, h⟩

/-- `_next_backoff_delay`. -/
def nextBackoffDelay (policy : ReconnectPolicy) (jitter : Jitter) (attempt : ℕ) :
    Except PyError PyFloat := do
  let uncapped ← policy.base.mulTwoPow attempt
  let capped := PyFloat.pyMin policy.cap uncapped
  return jitter.draw capped

/-- A delay between 0 and `min(cap, base * 2 ** attempt)`. -/
def DelayInRange (policy : ReconnectPolicy) (attempt : ℕ) (delay : PyFloat) : Prop :=
  .finite 0 ≤ delay ∧ delay ≤ policy.cap ∧ delay ≤ policy.base.scaled attempt

theorem nextBackoffDelay_of_lt (policy : ReconnectPolicy) (jitter : Jitter) {attempt : ℕ}
    (h : attempt < 1024) :
    nextBackoffDelay policy jitter attempt =
      .ok (jitter.draw (.pyMin policy.cap (policy.base.scaled attempt))) := by
  have hfits : FitsDouble (2 ^ attempt) := (fitsDouble_two_pow_iff attempt).mpr h
  simp only [nextBackoffDelay, PyFloat.mulTwoPow, if_pos hfits]
  rfl

theorem nextBackoffDelay_of_ge (policy : ReconnectPolicy) (jitter : Jitter) {attempt : ℕ}
    (h : 1024 ≤ attempt) :
    nextBackoffDelay policy jitter attempt = .error .overflowError := by
  have hfits : ¬ FitsDouble (2 ^ attempt) := fun hfits =>
    absurd ((fitsDouble_two_pow_iff attempt).mp hfits) (not_lt.mpr h)
  simp only [nextBackoffDelay, PyFloat.mulTwoPow, if_neg hfits]
  rfl

/-- A nonnegative double is scaled exactly, short of an overflow. -/
theorem scaled_of_nonneg {v : ℚ} (hv : 0 ≤ v) (n : ℕ) :
    (PyFloat.finite v).scaled n = if 2 ^ 1024 ≤ v * 2 ^ n then .inf else .finite (v * 2 ^ n) := by
  have hprod : 0 ≤ v * 2 ^ n := mul_nonneg hv (pow_nonneg (by norm_num) n)
  have hnot : ¬ v * 2 ^ n ≤ -2 ^ 1024 := by
    intro hle
    have hneg : -(2 : ℚ) ^ 1024 < 0 := neg_lt_zero.mpr (pow_pos (by norm_num) _)
    exact absurd (hprod.trans hle) (not_le.mpr hneg)
  unfold PyFloat.scaled
  simp only
  rw [if_neg hnot]

/-- Scaling a nonnegative double keeps it nonnegative. -/
theorem zero_le_scaled {x : PyFloat} (h : .finite 0 ≤ x) (n : ℕ) : .finite 0 ≤ x.scaled n := by
  cases x with
  | finite v =>
    have hv : 0 ≤ v := of_decide_eq_true h
    have hprod : 0 ≤ v * 2 ^ n := mul_nonneg hv (pow_nonneg (by norm_num) n)
    rw [scaled_of_nonneg hv]
    split_ifs with htop
    · rfl
    · exact decide_eq_true hprod
  | inf => rfl
  | negInf => exact absurd h (by decide)
  | nan => exact absurd h (by decide)

theorem delayInRange_draw (policy : ReconnectPolicy) (jitter : Jitter) (attempt : ℕ) :
    DelayInRange policy attempt
      (jitter.draw (.pyMin policy.cap (policy.base.scaled attempt))) := by
  have hbase : .finite 0 ≤ policy.base :=
    PyFloat.le_trans (b := .finite minReconnectBase) (by decide +kernel) policy.le_base
  have hcap : .finite 0 ≤ policy.cap := PyFloat.le_trans hbase policy.base_le_cap
  have hscaled : .finite 0 ≤ policy.base.scaled attempt := zero_le_scaled hbase attempt
  obtain ⟨hlow, hhigh⟩ := jitter.draw_mem _ (PyFloat.le_pyMin hcap hscaled)
  refine ⟨hlow, ?_, ?_⟩
  · have hrefl : policy.cap ≤ policy.cap := (PyFloat.le_total_of_le hcap hcap).elim id id
    exact PyFloat.le_trans hhigh (PyFloat.pyMin_le_left hrefl)
  · have hrefl : policy.base.scaled attempt ≤ policy.base.scaled attempt :=
      (PyFloat.le_total_of_le hscaled hscaled).elim id id
    have htotal := PyFloat.le_total_of_le hcap hscaled
    exact PyFloat.le_trans hhigh (PyFloat.pyMin_le_right htotal hrefl)

/-- `_next_backoff_delay` returns, with a delay in range, exactly for the attempt
numbers whose power of two is a double. -/
theorem exists_delayInRange_iff (policy : ReconnectPolicy) (jitter : Jitter) (attempt : ℕ) :
    (∃ delay, nextBackoffDelay policy jitter attempt = .ok delay ∧
      DelayInRange policy attempt delay) ↔ attempt < 1024 := by
  refine ⟨?_, fun h => ?_⟩
  · rintro ⟨delay, hdelay, -⟩
    refine lt_of_not_ge fun hge => ?_
    rw [nextBackoffDelay_of_ge policy jitter hge] at hdelay
    cases hdelay
  · exact ⟨_, nextBackoffDelay_of_lt policy jitter h, delayInRange_draw policy jitter attempt⟩

/-! ## The loop -/

/-- How one `_run_connection` ends. -/
inductive ConnectionEnd where
  | closed
  | failed
  | cancelled
  deriving DecidableEq, Repr

/-- What one round of the loop meets: the end of the connection, whether a stop
was requested by then, the draw for the delay, and whether a stop was requested
while it slept. -/
structure Round where
  ending : ConnectionEnd
  stopRequested : Bool
  jitter : Jitter
  stoppedAsleep : Bool

/-- Where the loop stands between two rounds: about to connect with its attempt
counter, or over. -/
inductive LoopState where
  | connecting (attempt : ℕ)
  | stopped
  | cancelled
  | crashed (error : PyError)
  deriving DecidableEq

/-- One round of `_connect_loop`. -/
def connectRound (policy : ReconnectPolicy) (s : LoopState) (r : Round) : LoopState :=
  match s with
  | .connecting attempt =>
    match r.ending with
    | .cancelled => .cancelled
    | .closed | .failed =>
      if r.stopRequested then .stopped
      else match nextBackoffDelay policy r.jitter attempt with
        | .error e => .crashed e
        | .ok _ => if r.stoppedAsleep then .stopped else .connecting (attempt + 1)
  | s => s

/-- `_connect_loop`; its output is the state it left the round in. -/
def connectLoop (policy : ReconnectPolicy) : Machine LoopState Round LoopState where
  step s r := (connectRound policy s r, connectRound policy s r)

/-- A round whose connection ends on its own, by an orderly close or by a
failure, while nobody stops the client. -/
def Round.Undisturbed (r : Round) : Prop :=
  r.ending ≠ .cancelled ∧ r.stopRequested = false ∧ r.stoppedAsleep = false

/-- A failed connection attempt. -/
def Round.failure (jitter : Jitter) : Round := ⟨.failed, false, jitter, false⟩

theorem Round.undisturbed_failure (jitter : Jitter) : (Round.failure jitter).Undisturbed :=
  ⟨ConnectionEnd.noConfusion, rfl, rfl⟩

theorem connectRound_of_lt (policy : ReconnectPolicy) {r : Round} (hr : r.Undisturbed)
    {attempt : ℕ} (h : attempt < 1024) :
    connectRound policy (.connecting attempt) r = .connecting (attempt + 1) := by
  obtain ⟨ending, stop, jitter, asleep⟩ := r
  obtain ⟨hend, hstop, hasleep⟩ := hr
  cases hstop
  cases hasleep
  have hdelay := nextBackoffDelay_of_lt policy jitter h
  cases ending with
  | closed => simp [connectRound, hdelay]
  | failed => simp [connectRound, hdelay]
  | cancelled => exact absurd rfl hend

theorem connectRound_of_ge (policy : ReconnectPolicy) {r : Round} (hr : r.Undisturbed)
    {attempt : ℕ} (h : 1024 ≤ attempt) :
    connectRound policy (.connecting attempt) r = .crashed .overflowError := by
  obtain ⟨ending, stop, jitter, asleep⟩ := r
  obtain ⟨hend, hstop, hasleep⟩ := hr
  cases hstop
  cases hasleep
  have hdelay := nextBackoffDelay_of_ge policy jitter h
  cases ending with
  | closed => simp [connectRound, hdelay]
  | failed => simp [connectRound, hdelay]
  | cancelled => exact absurd rfl hend

theorem exec_connectLoop_crashed (policy : ReconnectPolicy) (e : PyError) (rounds : List Round) :
    (connectLoop policy).exec (.crashed e) rounds = .crashed e := by
  induction rounds with
  | nil => rfl
  | cons r rounds ih => exact ih

/-- The loop after a run of undisturbed rounds.  The counter counts rounds of
either kind: an orderly close does not reset it. -/
theorem exec_connectLoop (policy : ReconnectPolicy) {rounds : List Round}
    (hrounds : ∀ r ∈ rounds, r.Undisturbed) {attempt : ℕ} (hattempt : attempt ≤ 1024) :
    (connectLoop policy).exec (.connecting attempt) rounds =
      if attempt + rounds.length ≤ 1024 then .connecting (attempt + rounds.length)
      else .crashed .overflowError := by
  induction rounds generalizing attempt with
  | nil => simp [hattempt]
  | cons r rounds ih =>
    obtain ⟨hr, hrest⟩ := List.forall_mem_cons.mp hrounds
    rw [Machine.exec_cons]
    simp only [connectLoop, List.length_cons]
    obtain hlt | hge := Nat.lt_or_ge attempt 1024
    · rw [connectRound_of_lt policy hr hlt]
      have hnext : attempt + 1 ≤ 1024 := hlt
      have hrun := ih hrest hnext
      rw [Nat.add_assoc, Nat.add_comm 1] at hrun
      exact hrun
    · rw [connectRound_of_ge policy hr hge, if_neg (by omega)]
      exact exec_connectLoop_crashed policy _ rounds

/-- The delay for attempt `n` is computed, and in range, exactly when `n < 1024`.
Behind any connections that ended on their own, the loop reaches the connection attempt
after a run of failures exactly when there were at most 1024 of all of them, and has
otherwise died of an overflow. -/
theorem survives_outage_iff (policy : ReconnectPolicy) (jitter : Jitter) (attempt : ℕ)
    (outage : List Jitter) :
    ((∃ delay, nextBackoffDelay policy jitter attempt = .ok delay ∧
        DelayInRange policy attempt delay) ↔ attempt < 1024) ∧
    ∀ ended : List Round, (∀ r ∈ ended, r.Undisturbed) →
      ((connectLoop policy).exec (.connecting 0) (ended ++ outage.map Round.failure) =
          .connecting (ended.length + outage.length) ↔ ended.length + outage.length ≤ 1024) := by
  refine ⟨exists_delayInRange_iff policy jitter attempt, fun ended hended => ?_⟩
  have hrounds : ∀ r ∈ ended ++ outage.map Round.failure, r.Undisturbed := by
    intro r hr
    rcases List.mem_append.mp hr with hr | hr
    · exact hended r hr
    · obtain ⟨j, -, rfl⟩ := List.mem_map.mp hr
      exact Round.undisturbed_failure j
  rw [exec_connectLoop policy hrounds (Nat.zero_le _), List.length_append, List.length_map,
    Nat.zero_add]
  obtain hlen | hlen := Nat.lt_or_ge 1024 (ended.length + outage.length)
  · rw [if_neg (not_le.mpr hlen)]
    exact iff_of_false LoopState.noConfusion (not_le.mpr hlen)
  · rw [if_pos hlen]
    exact iff_of_true rfl hlen

/-- With the default delays the counter value 1024 raises, and the loop is dead
after 1025 failed connections. -/
theorem default_client_dies :
    ¬ ∀ (policy : ReconnectPolicy) (attempt : ℕ) (outage : List Jitter),
      (∃ delay, nextBackoffDelay policy .lowest attempt = .ok delay ∧
        DelayInRange policy attempt delay) ∧
      (connectLoop policy).exec (.connecting 0) (outage.map Round.failure) =
        .connecting outage.length := by
  intro hclaim
  obtain ⟨⟨delay, hdelay, -⟩, -⟩ := hclaim .default 1024 (List.replicate 1025 .lowest)
  rw [nextBackoffDelay_of_ge _ _ le_rfl] at hdelay
  cases hdelay

end SmartIDS.PacketCapture
