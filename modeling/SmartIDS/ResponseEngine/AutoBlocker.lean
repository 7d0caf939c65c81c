import Mathlib.Data.Finset.Basic
import SmartIDS.Foundation.Dict
import SmartIDS.Foundation.Effect
import SmartIDS.Foundation.Machine
import SmartIDS.Python.IpAddress
import SmartIDS.Python.Value
import SmartIDS.ResponseEngine.Firewall
set_option autoImplicit false

/-!
# ResponseEngine: the automatic blocker

`response_engine/auto_blocker.py`.  The blocker keeps a deadline for every
address it has blocked and asks the firewall to lift the block once the deadline
has passed.  The firewall is reached through an adapter that may be missing
(`None` on an unsupported platform).

The block records and the activity log are files; they are modelled as the sequence of
what is logged, and are taken to be writable here.  `LoggedBlocker` is the blocker over
files that may fail.
-/

namespace SmartIDS.ResponseEngine

open SmartIDS.Foundation SmartIDS.PacketCapture SmartIDS.Python

/-- What `time.time()` returns at the places one call reads it, in the order the
call reaches them.  The clock is assumed to stay between the year 1 and the last
day of the year 9999. -/
structure Clock where
  /-- in `expire_blocks` -/
  expireTime : Time
  /-- in the called method itself -/
  now : Time
  /-- in `_record` -/
  recordTime : Time
  /-- in `apply_backend_command`, for the block event -/
  publishTime : Time
  expireTime_le_now : expireTime ≤ now
  now_le_recordTime : now ≤ recordTime
  recordTime_le_publishTime : recordTime ≤ publishTime
  minTimestamp_le_expireTime : minTimestamp ≤ expireTime
  publishTime_lt : publishTime + 86400 < maxTimestamp

/-- A clock that shows one time throughout a call. -/
def Clock.frozen (t : Time) (hlow : minTimestamp ≤ t) (hhigh : t + 86400 < maxTimestamp) :
    Clock :=
  ⟨t, t, t, t, le_refl t, le_refl t, le_refl t, hlow, hhigh⟩

/-- What one call meets outside the engine. -/
structure Host (Ω : Type) where
  clock : Clock
  outcomes : Ω

/-- A host whose clock stands still during the call. -/
def Host.frozen {Ω : Type} (seconds : ℕ) (outcomes : Ω) (hlt : seconds < 253402214400) :
    Host Ω where
  clock := Clock.frozen seconds
    (by unfold minTimestamp; exact le_trans (by norm_num) (Nat.cast_nonneg seconds))
    (by
      have : (seconds : ℚ) < 253402214400 := by exact_mod_cast hlt
      unfold maxTimestamp
      linarith)
  outcomes := outcomes

/-- A second of the first day. -/
theorem lt_maxSeconds_1000 : 1000 < 253402214400 := by decide

/-- A second of November 2023. -/
theorem lt_maxSeconds_1700000000 : 1700000000 < 253402214400 := by decide

/-- One line of `logs/blocked_ips.jsonl`. -/
structure BlockRecord where
  ip : String
  status : String
  durationSeconds : ℤ
  blockedUntil : Option Time
  timesBlocked : ℕ
  currentStatus : String
  deriving DecidableEq

/-- One call of `IPActivityTracker.record_activity`. -/
structure Activity where
  ipAddress : String
  attackType : String
  action : String
  timestamp : Time
  deriving DecidableEq

structure AutoBlocker (Φ : Type) where
  firewall : Φ
  lastBlockTime : Dict String Time
  blockedUntil : Dict String Time
  blockCounts : Dict String ℕ
  watchlistedIps : Finset String
  records : List BlockRecord
  activity : List Activity

namespace AutoBlocker

variable {Φ Ω : Type}

def blockCooldownSeconds : Time := 60

/-- `__init__`, on a host whose firewall is in the state `firewall`. -/
def init (firewall : Φ) : AutoBlocker Φ where
  firewall := firewall
  lastBlockTime := .empty
  blockedUntil := .empty
  blockCounts := .empty
  watchlistedIps := ∅
  records := []
  activity := []

/-- `_is_valid_routable_ip`. -/
def isValidRoutableIp (ip : String) : Bool :=
  match ipAddress ip with
  | some addr => !addr.isLoopback
  | none => false

/-- `record_detection_activity`. -/
def recordDetectionActivity (b : AutoBlocker Φ) (ip attackType action : String) (timestamp : Time) :
    AutoBlocker Φ :=
  { b with activity := b.activity ++ [⟨ip, attackType, action, timestamp⟩] }

/-- The deadline `_record` writes down. -/
def recordedUntil (h : Host Ω) (duration : ℤ) : Except PyError (Option Time) :=
  if 0 < duration then do
    let t ← addSeconds h.clock.recordTime duration
    return some (← fromTimestamp t)
  else
    return none

/-- The line `_record` appends. -/
def appendRecord (status ip : String) (duration : ℤ) (until_ : Option Time) (b : AutoBlocker Φ) :
    AutoBlocker Φ :=
  { b with records := b.records ++ [{
      ip := ip
      status := status
      durationSeconds := duration
      blockedUntil := until_
      timesBlocked := (b.blockCounts.get? ip).getD 0
      currentStatus := if 0 < duration then "blocked" else "unblocked" }] }

/-- `_record`. -/
def record (h : Host Ω) (status ip : String) (duration : ℤ) :
    Effect PyError (AutoBlocker Φ) Unit := do
  let until_ ← Effect.ofExcept (recordedUntil h duration)
  Effect.modify (appendRecord status ip duration until_)

/-! ## Expiry -/

/-- The addresses whose deadline has passed, in the order of the ledger. -/
def expired (b : AutoBlocker Φ) (now : Time) : List String :=
  (b.blockedUntil.entries.filter fun e => e.2 ≤ now).map Prod.fst

/-- The body of the loop of `expire_blocks`.  `_record` is called with duration
zero here and computes no deadline. -/
def expireOne (fw : FirewallAdapter Φ Ω) (h : Host Ω) (b : AutoBlocker Φ) (ip : String) :
    AutoBlocker Φ :=
  let ((ok, status), firewall) := fw.unblockIp h.outcomes ip b.firewall
  let b := { b with firewall := firewall }
  let b := appendRecord (if ok then "unblocked" else status) ip 0 none b
  let b := recordDetectionActivity b ip "unblock_action"
    (if ok then "unblocked" else "unblock_failed") h.clock.expireTime
  { b with
    blockedUntil := b.blockedUntil.erase ip
    lastBlockTime := b.lastBlockTime.erase ip }

/-- `expire_blocks`. -/
def expireBlocks (fw : Option (FirewallAdapter Φ Ω)) (h : Host Ω) (b : AutoBlocker Φ) :
    AutoBlocker Φ :=
  match fw with
  | none => b
  | some fw => (b.expired h.clock.expireTime).foldl (expireOne fw h) b

/-! ## Blocking -/

/-- Write the cooldown stamp and then the deadline of an enforced block. -/
def grant (h : Host Ω) (ip : String) (duration : ℤ) : Effect PyError (AutoBlocker Φ) Unit := do
  Effect.modify fun b => { b with lastBlockTime := b.lastBlockTime.set ip h.clock.now }
  let until_ ← Effect.ofExcept (addSeconds h.clock.now (max 1 duration))
  Effect.modify fun b => { b with blockedUntil := b.blockedUntil.set ip until_ }

/-- Whether the address was blocked less than the cooldown ago. -/
def coolingDown (b : AutoBlocker Φ) (now : Time) (ip : String) : Bool :=
  match b.lastBlockTime.get? ip with
  | some last => now - last < blockCooldownSeconds
  | none => false

/-- `temp_block` past the checks that refuse the request. -/
def enforce (fw : FirewallAdapter Φ Ω) (h : Host Ω) (ip : String) (duration : ℤ) :
    Effect PyError (AutoBlocker Φ) (Bool × String) := do
  let b ← Effect.get
  if fw.isBlocked h.outcomes ip b.firewall then
    grant h ip duration
    record h "already_blocked" ip duration
    Effect.modify fun b =>
      recordDetectionActivity b ip "already_blocked_activity" "blocked" h.clock.now
    return (true, "already_blocked")
  else
    let answer := fw.blockIp h.outcomes ip b.firewall
    Effect.modify fun b => { b with firewall := answer.2 }
    if answer.1.1 then
      grant h ip duration
      Effect.modify fun b =>
        { b with blockCounts := b.blockCounts.set ip ((b.blockCounts.get? ip).getD 0 + 1) }
      record h answer.1.2 ip duration
      Effect.modify fun b =>
        recordDetectionActivity b ip "block_action" "blocked" h.clock.now
    return answer.1

/-- `temp_block`. -/
def tempBlock (fw : Option (FirewallAdapter Φ Ω)) (h : Host Ω) (ip : String) (duration : ℤ) :
    Effect PyError (AutoBlocker Φ) (Bool × String) :=
  match fw with
  | none => return (false, "unsupported_platform")
  | some adapter =>
    if isValidRoutableIp ip then do
      Effect.modify (expireBlocks fw h)
      let b ← Effect.get
      if b.coolingDown h.clock.now ip then
        return (false, "cooldown_active")
      enforce adapter h ip duration
    else
      return (false, "invalid_or_loopback_ip")

/-- `manual_block`. -/
def manualBlock (fw : Option (FirewallAdapter Φ Ω)) (h : Host Ω) (ip : String) (duration : ℤ) :
    Effect PyError (AutoBlocker Φ) (Bool × String) :=
  tempBlock fw h ip duration

/-- `block_if_needed`. -/
def blockIfNeeded (fw : Option (FirewallAdapter Φ Ω)) (h : Host Ω) (ip : String) :
    Effect PyError (AutoBlocker Φ) (Bool × String) :=
  tempBlock fw h ip 300

/-- `manual_unblock`. -/
def manualUnblock (fw : Option (FirewallAdapter Φ Ω)) (h : Host Ω) (ip : String)
    (b : AutoBlocker Φ) : (Bool × String) × AutoBlocker Φ :=
  match fw with
  | none => ((false, "unsupported_platform"), b)
  | some fw =>
    if isValidRoutableIp ip then
      let (answer, firewall) := fw.unblockIp h.outcomes ip b.firewall
      let b := { b with firewall := firewall }
      if answer.1 then
        let b := { b with
          blockedUntil := b.blockedUntil.erase ip
          lastBlockTime := b.lastBlockTime.erase ip }
        let b := appendRecord "unblocked" ip 0 none b
        (answer, recordDetectionActivity b ip "manual_unblock" "unblocked" h.clock.now)
      else
        (answer, b)
    else
      ((false, "invalid_or_loopback_ip"), b)

/-! ## Watchlist and queries -/

/-- `watchlist_ip`. -/
def watchlistIp (h : Host Ω) (ip : String) (b : AutoBlocker Φ) : (Bool × String) × AutoBlocker Φ :=
  if isValidRoutableIp ip then
    let b := { b with watchlistedIps := insert ip b.watchlistedIps }
    ((true, "watchlisted"),
      recordDetectionActivity b ip "watchlist_action" "watchlisted" h.clock.now)
  else
    ((false, "invalid_or_loopback_ip"), b)

/-- `unwatchlist_ip`. -/
def unwatchlistIp (h : Host Ω) (ip : String) (b : AutoBlocker Φ) :
    (Bool × String) × AutoBlocker Φ :=
  if ip ∈ b.watchlistedIps then
    let b := { b with watchlistedIps := b.watchlistedIps.erase ip }
    ((true, "unwatchlisted"),
      recordDetectionActivity b ip "watchlist_action" "unwatchlisted" h.clock.now)
  else
    ((false, "not_watchlisted"), b)

/-- `is_watchlisted`. -/
def isWatchlisted (b : AutoBlocker Φ) (ip : String) : Bool := ip ∈ b.watchlistedIps

/-- `is_currently_blocked`. -/
def isCurrentlyBlocked (fw : Option (FirewallAdapter Φ Ω)) (h : Host Ω) (b : AutoBlocker Φ)
    (ip : String) : Bool :=
  let live := match b.blockedUntil.get? ip with
    | some until_ => decide (h.clock.now < until_)
    | none => false
  if live then true
  else match fw with
    | none => false
    | some fw => fw.isBlocked h.outcomes ip b.firewall

/-! ## The blocker as a machine -/

/-- The calls that grant, lift or expire blocks. -/
inductive Operation (Ω : Type) where
  | tempBlock (h : Host Ω) (ip : String) (duration : ℤ)
  | manualBlock (h : Host Ω) (ip : String) (duration : ℤ)
  | manualUnblock (h : Host Ω) (ip : String)
  | expireBlocks (h : Host Ω)

/-- The host the operation runs on. -/
def Operation.host : Operation Ω → Host Ω
  | .tempBlock h _ _ => h
  | .manualBlock h _ _ => h
  | .manualUnblock h _ => h
  | .expireBlocks h => h

/-- The clock of a run never goes back. -/
def Nondecreasing (ops : List (Operation Ω)) : Prop :=
  ops.Pairwise fun op op' => op.host.clock.publishTime ≤ op'.host.clock.expireTime

/-- The blocker of one process; the output is what the call returns or raises,
`none` for the `None` of `expire_blocks`. -/
def machine (fw : Option (FirewallAdapter Φ Ω)) :
    Machine (AutoBlocker Φ) (Operation Ω) (Except PyError (Option (Bool × String))) where
  step b op :=
    match op with
    | .tempBlock h ip duration =>
      let (answer, b') := tempBlock fw h ip duration b
      (b', answer.map some)
    | .manualBlock h ip duration =>
      let (answer, b') := manualBlock fw h ip duration b
      (b', answer.map some)
    | .manualUnblock h ip =>
      let (answer, b') := manualUnblock fw h ip b
      (b', .ok (some answer))
    | .expireBlocks h => (expireBlocks fw h b, .ok none)

end AutoBlocker

end SmartIDS.ResponseEngine
