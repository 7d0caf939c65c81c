import SmartIDS.Python.JsonDocument
import SmartIDS.ResponseEngine.BlockerSpec
import SmartIDS.ResponseEngine.IpActivityLog
set_option autoImplicit false

/-!
# ResponseEngine: the blocker and the files it logs to

Every block that is granted and every block that expires is written to two files, and
neither write is guarded: a disk that fails raises out of the middle of a call.
`AutoBlocker` takes the files to be writable; here what becomes of each write is an
input, and the blocker stands beside the file of its records and the tracker of the
activity.

Whatever the files do, the firewall and the books of the blocker are those of
`AutoBlocker` as far as the call comes.
-/

namespace SmartIDS.ResponseEngine

open SmartIDS.Foundation SmartIDS.PacketCapture SmartIDS.Python

/-- What becomes of the two lines a block or an expired block is logged with, and when they
are written. -/
structure LogWrites where
  record : Writing
  recordedAt : Datetime
  activity : LogDisk
  notedAt : Datetime

/-- What one call meets outside the engine: the clock and the firewall, the lines for the
addresses the sweep lifts (it lifts none twice), and those of the call itself. -/
structure LoggedHost (Ω : Type) where
  host : Host Ω
  sweeping : String → LogWrites
  logging : LogWrites

/-- `AutoBlocker` with its `record_store` and its `activity_tracker`. -/
structure LoggedBlocker (Φ : Type) where
  blocker : AutoBlocker Φ
  recordFile : File
  activityTracker : IPActivityTracker

/-- `json.dumps(payload, ensure_ascii=True)` in `append_event`. -/
def BlockRecord.dumps (event : BlockRecord) (blockedUntil : Option String)
    (recordedAt : Datetime) : Except PyError String := do
  let duration ← intText event.durationSeconds
  let timesBlocked ← intText event.timesBlocked
  return jsonObject [("ip", jsonString event.ip), ("status", jsonString event.status),
    ("duration_seconds", duration),
    ("blocked_until", (blockedUntil.map jsonString).getD "null"),
    ("times_blocked", timesBlocked), ("current_status", jsonString event.currentStatus),
    ("recorded_at_utc", jsonString recordedAt.isoformat)]

/-- `append_event`: the file is opened before the line is put together. -/
def appendEvent (event : BlockRecord) (blockedUntil : Option String) (w : LogWrites) :
    Effect PyError File Unit :=
  match w.record with
  | .refused => Effect.ofExcept (.error .osError)
  | writing => do
    Effect.modify fun file => file.extend .empty
    let line ← Effect.ofExcept (event.dumps blockedUntil w.recordedAt)
    appendText writing (line ++ "\n")

/-- The firewall and the books of two blockers agree. -/
structure AutoBlocker.SameBooks {Φ : Type} (b b' : AutoBlocker Φ) : Prop where
  firewall : b'.firewall = b.firewall
  blockedUntil : b'.blockedUntil = b.blockedUntil
  lastBlockTime : b'.lastBlockTime = b.lastBlockTime
  blockCounts : b'.blockCounts = b.blockCounts

namespace AutoBlocker.SameBooks

variable {Φ : Type} {b b' b'' : AutoBlocker Φ}

theorem refl (b : AutoBlocker Φ) : SameBooks b b := ⟨rfl, rfl, rfl, rfl⟩

theorem symm (h : SameBooks b b') : SameBooks b' b :=
  ⟨h.firewall.symm, h.blockedUntil.symm, h.lastBlockTime.symm, h.blockCounts.symm⟩

theorem trans (h : SameBooks b b') (h' : SameBooks b' b'') : SameBooks b b'' :=
  ⟨h'.firewall.trans h.firewall, h'.blockedUntil.trans h.blockedUntil,
    h'.lastBlockTime.trans h.lastBlockTime, h'.blockCounts.trans h.blockCounts⟩

theorem of_records (h : SameBooks b b') (records : List BlockRecord) :
    SameBooks b { b' with records := records } :=
  ⟨h.firewall, h.blockedUntil, h.lastBlockTime, h.blockCounts⟩

theorem of_activity (h : SameBooks b b') (activity : List Activity) :
    SameBooks b { b' with activity := activity } :=
  ⟨h.firewall, h.blockedUntil, h.lastBlockTime, h.blockCounts⟩

theorem coolingDown (h : SameBooks b b') (now : Time) (ip : String) :
    b'.coolingDown now ip = b.coolingDown now ip := by
  simp only [AutoBlocker.coolingDown, h.lastBlockTime]

theorem expireOne {Ω : Type} (h : SameBooks b b') (fw : FirewallAdapter Φ Ω) (host : Host Ω)
    (ip : String) :
    SameBooks (AutoBlocker.expireOne fw host b ip) (AutoBlocker.expireOne fw host b' ip) where
  firewall := by
    simp only [firewall_expireOne, h.firewall]
  blockedUntil := by
    simp only [blockedUntil_expireOne, h.blockedUntil]
  lastBlockTime := by
    simp only [lastBlockTime_expireOne, h.lastBlockTime]
  blockCounts := h.blockCounts

end AutoBlocker.SameBooks

namespace LoggedBlocker

variable {Φ Ω : Type}

/-- `__init__` over a firewall and the files of an earlier process. -/
def init (firewall : Φ) (recordFile : File) (limits : TrackerLimits) (activityFile : File) :
    LoggedBlocker Φ :=
  ⟨.init firewall, recordFile, .init limits activityFile⟩

/-- A part of a call that writes no file. -/
def onBlocker {α : Type} (x : Effect PyError (AutoBlocker Φ) α) :
    Effect PyError (LoggedBlocker Φ) α :=
  Effect.zoom blocker (fun b s => { s with blocker := b }) x

/-- The deadline in `_record`, as text. -/
def recordedUntil (h : Host Ω) (duration : ℤ) : Except PyError (Option String) :=
  if 0 < duration then do
    let t ← addSeconds h.clock.recordTime duration
    let deadline ← Datetime.fromTimestamp t
    return some deadline.isoformat
  else
    return none

/-- The event `_record` appends. -/
def blockRecord (b : AutoBlocker Φ) (h : Host Ω) (status ip : String) (duration : ℤ) :
    BlockRecord where
  ip := ip
  status := status
  durationSeconds := duration
  blockedUntil := if 0 < duration then some (h.clock.recordTime + duration) else none
  timesBlocked := (b.blockCounts.get? ip).getD 0
  currentStatus := if 0 < duration then "blocked" else "unblocked"

/-- `_record`. -/
def record (h : Host Ω) (w : LogWrites) (status ip : String) (duration : ℤ) :
    Effect PyError (LoggedBlocker Φ) Unit := do
  let until_ ← Effect.ofExcept (recordedUntil h duration)
  let s ← Effect.get
  let event := blockRecord s.blocker h status ip duration
  Effect.zoom recordFile (fun file s => { s with recordFile := file }) (appendEvent event until_ w)
  onBlocker (Effect.modify fun b => { b with records := b.records ++ [event] })

/-- `record_detection_activity`. -/
def recordDetectionActivity (w : LogWrites) (ip attackType action : String) (timestamp : Time) :
    Effect PyError (LoggedBlocker Φ) Unit := do
  Effect.zoom activityTracker (fun tracker s => { s with activityTracker := tracker })
    (IPActivityTracker.recordActivity ⟨ip, attackType, action, timestamp⟩ w.notedAt w.activity)
  onBlocker (Effect.modify fun b => b.recordDetectionActivity ip attackType action timestamp)

/-- The body of the loop of `expire_blocks`. -/
def expireOne (fw : FirewallAdapter Φ Ω) (h : LoggedHost Ω) (ip : String) :
    Effect PyError (LoggedBlocker Φ) Unit := do
  let s ← Effect.get
  let answer := fw.unblockIp h.host.outcomes ip s.blocker.firewall
  onBlocker (Effect.modify fun b => { b with firewall := answer.2 })
  record h.host (h.sweeping ip) (if answer.1.1 then "unblocked" else answer.1.2) ip 0
  recordDetectionActivity (h.sweeping ip) ip "unblock_action"
    (if answer.1.1 then "unblocked" else "unblock_failed") h.host.clock.expireTime
  onBlocker (Effect.modify fun b => { b with
    blockedUntil := b.blockedUntil.erase ip
    lastBlockTime := b.lastBlockTime.erase ip })

/-- `expire_blocks`. -/
def expireBlocks (fw : Option (FirewallAdapter Φ Ω)) (h : LoggedHost Ω) :
    Effect PyError (LoggedBlocker Φ) Unit :=
  match fw with
  | none => return ()
  | some fw => do
    let s ← Effect.get
    (s.blocker.expired h.host.clock.expireTime).forM (expireOne fw h)

/-- `temp_block` past the checks that refuse the request. -/
def enforce (fw : FirewallAdapter Φ Ω) (h : LoggedHost Ω) (ip : String) (duration : ℤ) :
    Effect PyError (LoggedBlocker Φ) (Bool × String) := do
  let s ← Effect.get
  if fw.isBlocked h.host.outcomes ip s.blocker.firewall then
    onBlocker (AutoBlocker.grant h.host ip duration)
    record h.host h.logging "already_blocked" ip duration
    recordDetectionActivity h.logging ip "already_blocked_activity" "blocked" h.host.clock.now
    return (true, "already_blocked")
  else
    let answer := fw.blockIp h.host.outcomes ip s.blocker.firewall
    onBlocker (Effect.modify fun b => { b with firewall := answer.2 })
    if answer.1.1 then
      onBlocker (AutoBlocker.grant h.host ip duration)
      onBlocker (Effect.modify fun b =>
        { b with blockCounts := b.blockCounts.set ip ((b.blockCounts.get? ip).getD 0 + 1) })
      record h.host h.logging answer.1.2 ip duration
      recordDetectionActivity h.logging ip "block_action" "blocked" h.host.clock.now
    return answer.1

/-- `temp_block`. -/
def tempBlock (fw : Option (FirewallAdapter Φ Ω)) (h : LoggedHost Ω) (ip : String)
    (duration : ℤ) : Effect PyError (LoggedBlocker Φ) (Bool × String) :=
  match fw with
  | none => return (false, "unsupported_platform")
  | some adapter =>
    if AutoBlocker.isValidRoutableIp ip then do
      expireBlocks fw h
      let s ← Effect.get
      if s.blocker.coolingDown h.host.clock.now ip then
        return (false, "cooldown_active")
      enforce adapter h ip duration
    else
      return (false, "invalid_or_loopback_ip")

/-- `manual_block`. -/
def manualBlock (fw : Option (FirewallAdapter Φ Ω)) (h : LoggedHost Ω) (ip : String)
    (duration : ℤ) : Effect PyError (LoggedBlocker Φ) (Bool × String) :=
  tempBlock fw h ip duration

/-! ## When a line is written -/

/-- The deadline `_record` writes down is a date. -/
def Dated (h : Host Ω) (duration : ℤ) : Prop :=
  0 < duration → FitsDouble duration ∧
    ∃ deadline, Datetime.fromTimestamp (h.clock.recordTime + duration) = .ok deadline

theorem Dated.fitsDouble {h : Host Ω} {duration : ℤ} (hdated : Dated h duration) :
    FitsDouble (max 1 duration) := by
  rcases le_or_gt duration 0 with hle | hpos
  · rw [show max 1 duration = 1 by omega]
    exact fitsDouble_of_lt (by decide)
  · rw [show max 1 duration = duration by omega]
    exact (hdated hpos).1

theorem Dated.recordable {h : Host Ω} {duration : ℤ} (hdated : Dated h duration) :
    AutoBlocker.Recordable h duration := by
  intro hpos
  obtain ⟨-, deadline, hdate⟩ := hdated hpos
  cases hstamp : fromTimestamp (h.clock.recordTime + duration) with
  | ok t => exact ((fromTimestamp_ok_iff _ _).mp hstamp).2.2
  | error e =>
    rw [Datetime.fromTimestamp, hstamp] at hdate
    cases hdate

theorem recordedUntil_isOk_iff (h : Host Ω) (duration : ℤ) :
    (∃ until_, recordedUntil h duration = .ok until_) ↔ Dated h duration := by
  unfold recordedUntil Dated
  rcases le_or_gt duration 0 with hle | hpos
  · rw [if_neg (by omega)]
    exact iff_of_true ⟨none, rfl⟩ fun hpos => absurd hpos (by omega)
  · rw [if_pos hpos]
    rcases em (FitsDouble duration) with hfits | hfits
    · rw [addSeconds_of_fits hfits]
      cases hstamp : Datetime.fromTimestamp (h.clock.recordTime + duration) with
      | ok deadline =>
        exact iff_of_true ⟨some deadline.isoformat, by simp only [bind, Except.bind, hstamp]; rfl⟩
          fun _ => ⟨hfits, deadline, rfl⟩
      | error e =>
        refine iff_of_false ?_ fun hdated => ?_
        · simp [bind, Except.bind, hstamp]
        · obtain ⟨-, deadline, hok⟩ := hdated hpos
          cases hok
    · rw [addSeconds_of_not_fits hfits]
      exact iff_of_false (by simp [bind, Except.bind]) fun hdated => hfits (hdated hpos).1

/-- The line of an event is appended, and its two numbers are not too long to be written. -/
structure RecordWritten (w : LogWrites) (duration : ℤ) (timesBlocked : ℕ) : Prop where
  appended : w.record = .done
  duration : ∃ text, intText duration = .ok text
  timesBlocked : ∃ text, intText timesBlocked = .ok text

theorem dumps_isOk_iff (event : BlockRecord) (blockedUntil : Option String)
    (recordedAt : Datetime) :
    (∃ line, event.dumps blockedUntil recordedAt = .ok line) ↔
      (∃ text, intText event.durationSeconds = .ok text) ∧
        ∃ text, intText event.timesBlocked = .ok text := by
  unfold BlockRecord.dumps
  cases intText event.durationSeconds with
  | error e => simp [bind, Except.bind]
  | ok duration =>
    cases intText event.timesBlocked with
    | error e => simp [bind, Except.bind]
    | ok timesBlocked => simp [bind, Except.bind, pure, Except.pure]

theorem appendEvent_returns_iff (event : BlockRecord) (blockedUntil : Option String)
    (w : LogWrites) (file : File) :
    (appendEvent event blockedUntil w file).1 = .ok () ↔
      RecordWritten w event.durationSeconds event.timesBlocked := by
  have hline := dumps_isOk_iff event blockedUntil w.recordedAt
  unfold appendEvent
  cases hwriting : w.record with
  | refused =>
    refine iff_of_false (by simp) fun hwritten => ?_
    rw [hwritten.appended] at hwriting
    cases hwriting
  | done =>
    dsimp only
    rw [Effect.bind_of_ok (Effect.modify_apply _ _), Effect.bind_apply, Effect.ofExcept_apply]
    cases hdumps : event.dumps blockedUntil w.recordedAt with
    | ok line =>
      obtain ⟨hduration, htimes⟩ := hline.mp ⟨line, hdumps⟩
      exact iff_of_true rfl ⟨hwriting, hduration, htimes⟩
    | error e =>
      refine iff_of_false (by simp) fun hwritten => ?_
      obtain ⟨line, hok⟩ := hline.mpr ⟨hwritten.duration, hwritten.timesBlocked⟩
      rw [hdumps] at hok
      cases hok
  | torn bytes =>
    refine iff_of_false ?_ fun hwritten => ?_
    · dsimp only
      rw [Effect.bind_of_ok (Effect.modify_apply _ _), Effect.bind_apply, Effect.ofExcept_apply]
      cases event.dumps blockedUntil w.recordedAt with
      | ok line =>
        intro h
        cases h
      | error e => simp
    · rw [hwritten.appended] at hwriting
      cases hwriting

/-! ## What the two logs leave alone -/

theorem record_returns_iff (h : Host Ω) (w : LogWrites) (status ip : String) (duration : ℤ)
    (s : LoggedBlocker Φ) :
    (record h w status ip duration s).1 = .ok () ↔
      Dated h duration ∧ RecordWritten w duration ((s.blocker.blockCounts.get? ip).getD 0) := by
  rw [← recordedUntil_isOk_iff]
  unfold record
  rw [Effect.bind_apply, Effect.ofExcept_apply]
  cases recordedUntil h duration with
  | error e => exact iff_of_false (by simp) fun hboth => by simpa using hboth.1
  | ok until_ =>
    have hevent := appendEvent_returns_iff (blockRecord s.blocker h status ip duration) until_ w
      s.recordFile
    change _ ↔ RecordWritten w duration ((s.blocker.blockCounts.get? ip).getD 0) at hevent
    dsimp only
    rw [Effect.bind_of_ok (Effect.get_apply s), Effect.bind_apply, Effect.zoom_apply, ← hevent]
    rcases appendEvent (blockRecord s.blocker h status ip duration) until_ w s.recordFile with
      ⟨result, file⟩
    cases result with
    | ok u => exact iff_of_true rfl ⟨⟨until_, rfl⟩, rfl⟩
    | error e => exact iff_of_false (by simp) fun hboth => by simpa using hboth.2

theorem recordDetectionActivity_returns_iff (w : LogWrites) (ip attackType action : String)
    (timestamp : Time) (s : LoggedBlocker Φ) :
    (recordDetectionActivity w ip attackType action timestamp s).1 = .ok () ↔
      s.activityTracker.Accepts ⟨⟨ip, attackType, action, timestamp⟩, w.notedAt, w.activity⟩ := by
  rw [← IPActivityTracker.recordActivity_returns_iff]
  unfold recordDetectionActivity
  rw [Effect.bind_apply, Effect.zoom_apply]
  rcases IPActivityTracker.recordActivity ⟨ip, attackType, action, timestamp⟩ w.notedAt w.activity
    s.activityTracker with ⟨result, tracker⟩
  cases result with
  | ok u => exact iff_of_true rfl rfl
  | error e => exact iff_of_false (by simp) (by simp)

theorem keeps_record (b : AutoBlocker Φ) (h : Host Ω) (w : LogWrites) (status ip : String)
    (duration : ℤ) :
    Effect.Keeps (fun s => b.SameBooks s.blocker)
      (record h w status ip duration : Effect PyError (LoggedBlocker Φ) Unit) :=
  .bind (.ofExcept _) fun _ => .bind .get fun _ => .bind (fun _ hs => hs) fun _ =>
    fun _ hs => hs.of_records _

theorem keeps_recordDetectionActivity (b : AutoBlocker Φ) (w : LogWrites)
    (ip attackType action : String) (timestamp : Time) :
    Effect.Keeps (fun s => b.SameBooks s.blocker)
      (recordDetectionActivity w ip attackType action timestamp :
        Effect PyError (LoggedBlocker Φ) Unit) :=
  .bind (fun _ hs => hs) fun _ => fun _ hs => hs.of_activity _

theorem activityTracker_record (h : Host Ω) (w : LogWrites) (status ip : String) (duration : ℤ)
    (s : LoggedBlocker Φ) :
    (record h w status ip duration s).2.activityTracker = s.activityTracker := by
  have hkeeps : Effect.Keeps (fun t : LoggedBlocker Φ => t.activityTracker = s.activityTracker)
      (record h w status ip duration) :=
    .bind (.ofExcept _) fun _ => .bind .get fun _ => .bind (fun _ ht => ht) fun _ =>
      fun _ ht => ht
  exact hkeeps s rfl

/-- The line of an event and that of its activity: a call goes on behind them exactly when both
are written, and the books stay as they are. -/
theorem log_cases {α : Type} (h : Host Ω) (w : LogWrites) (status ip : String) (duration : ℤ)
    (attackType action : String) (timestamp : Time) (next : Effect PyError (LoggedBlocker Φ) α)
    (s : LoggedBlocker Φ) :
    let written := Dated h duration ∧
      RecordWritten w duration ((s.blocker.blockCounts.get? ip).getD 0) ∧
      s.activityTracker.Accepts ⟨⟨ip, attackType, action, timestamp⟩, w.notedAt, w.activity⟩
    let run := (record h w status ip duration >>= fun _ =>
      recordDetectionActivity w ip attackType action timestamp >>= fun _ => next) s
    (written ∧ ∃ t, s.blocker.SameBooks t.blocker ∧ run = next t) ∨
      (¬ written ∧ ∃ e t, s.blocker.SameBooks t.blocker ∧ run = (.error e, t)) := by
  have hrecord := record_returns_iff h w status ip duration s
  have hbooks := keeps_record s.blocker h w status ip duration s (.refl _)
  have htracker := activityTracker_record h w status ip duration s
  dsimp only
  rw [Effect.bind_apply]
  rcases hrun : record h w status ip duration s with ⟨result, t⟩
  rw [hrun] at hrecord hbooks htracker
  cases result with
  | error e =>
    refine Or.inr ⟨fun hall => ?_, e, t, hbooks, rfl⟩
    exact absurd (hrecord.mpr ⟨hall.1, hall.2.1⟩) (by simp)
  | ok u =>
    have hactivity := recordDetectionActivity_returns_iff w ip attackType action timestamp t
    have hbooks' := keeps_recordDetectionActivity s.blocker w ip attackType action timestamp t
      hbooks
    rw [show t.activityTracker = s.activityTracker from htracker] at hactivity
    dsimp only
    rw [Effect.bind_apply]
    rcases hrun' : recordDetectionActivity w ip attackType action timestamp t with ⟨result, t'⟩
    rw [hrun'] at hactivity hbooks'
    cases result with
    | error e =>
      refine Or.inr ⟨fun hall => ?_, e, t', hbooks', rfl⟩
      exact absurd (hactivity.mpr hall.2.2) (by simp)
    | ok u' =>
      obtain ⟨hdated, hwritten⟩ := hrecord.mp rfl
      exact Or.inl ⟨⟨hdated, hwritten, hactivity.mp rfl⟩, t', hbooks', rfl⟩

/-! ## The sweep -/

/-- The firewall once the blocks of some addresses were lifted, one by one. -/
def unblockAll (fw : Option (FirewallAdapter Φ Ω)) (h : Host Ω) (ips : List String) (φ : Φ) : Φ :=
  match fw with
  | none => φ
  | some fw => ips.foldl (fun φ ip => (fw.unblockIp h.outcomes ip φ).2) φ

/-- The blocks of some addresses were lifted, in turn; the books drop them, the last one perhaps
not yet. -/
structure PartlySwept (fw : Option (FirewallAdapter Φ Ω)) (h : Host Ω) (due : List String)
    (b b' : AutoBlocker Φ) : Prop where
  sweep : ∃ asked dropped, asked <+: due ∧ dropped <+: asked ∧
    b'.firewall = unblockAll fw h asked b.firewall ∧
    b'.blockedUntil = dropped.foldl Dict.erase b.blockedUntil ∧
    b'.lastBlockTime = dropped.foldl Dict.erase b.lastBlockTime
  blockCounts : b'.blockCounts = b.blockCounts

/-- The two lines of one expired block. -/
def LineWritten (fw : FirewallAdapter Φ Ω) (h : LoggedHost Ω) (ip : String)
    (s : LoggedBlocker Φ) : Prop :=
  RecordWritten (h.sweeping ip) 0 ((s.blocker.blockCounts.get? ip).getD 0) ∧
    s.activityTracker.Accepts ⟨⟨ip, "unblock_action",
      if (fw.unblockIp h.host.outcomes ip s.blocker.firewall).1.1 then "unblocked"
      else "unblock_failed", h.host.clock.expireTime⟩, (h.sweeping ip).notedAt,
      (h.sweeping ip).activity⟩

/-- The lines of some expired blocks, in turn. -/
def LinesWritten (fw : FirewallAdapter Φ Ω) (h : LoggedHost Ω) :
    List String → LoggedBlocker Φ → Prop
  | [], _ => True
  | ip :: ips, s => LineWritten fw h ip s ∧ LinesWritten fw h ips (expireOne fw h ip s).2

/-- The lines of the sweep are written. -/
def SweepWritten (fw : Option (FirewallAdapter Φ Ω)) (h : LoggedHost Ω) (s : LoggedBlocker Φ) :
    Prop :=
  match fw with
  | none => True
  | some fw => LinesWritten fw h (s.blocker.expired h.host.clock.expireTime) s

/-- One turn of the sweep: the block is lifted, and dropped from the books if the two lines are
written. -/
theorem expireOne_cases (fw : FirewallAdapter Φ Ω) (h : LoggedHost Ω) (ip : String)
    (s : LoggedBlocker Φ) :
    (LineWritten fw h ip s ∧ (expireOne fw h ip s).1 = .ok () ∧
        (AutoBlocker.expireOne fw h.host s.blocker ip).SameBooks (expireOne fw h ip s).2.blocker) ∨
      (¬ LineWritten fw h ip s ∧ (∃ e, (expireOne fw h ip s).1 = .error e) ∧
        AutoBlocker.SameBooks
          { s.blocker with firewall := (fw.unblockIp h.host.outcomes ip s.blocker.firewall).2 }
          (expireOne fw h ip s).2.blocker) := by
  let answer := fw.unblockIp h.host.outcomes ip s.blocker.firewall
  let lifted : LoggedBlocker Φ := { s with blocker := { s.blocker with firewall := answer.2 } }
  let status := if answer.1.1 then "unblocked" else answer.1.2
  let action := if answer.1.1 then "unblocked" else "unblock_failed"
  have hdated : Dated h.host 0 := fun hpos => absurd hpos (by omega)
  have hexpire : expireOne fw h ip s = (record h.host (h.sweeping ip) status ip 0 >>= fun _ =>
      recordDetectionActivity (h.sweeping ip) ip "unblock_action" action
        h.host.clock.expireTime >>= fun _ =>
      onBlocker (Effect.modify fun b => { b with
        blockedUntil := b.blockedUntil.erase ip
        lastBlockTime := b.lastBlockTime.erase ip })) lifted := rfl
  rw [hexpire]
  rcases log_cases h.host (h.sweeping ip) status ip 0 "unblock_action" action
      h.host.clock.expireTime (onBlocker (Effect.modify fun b => { b with
        blockedUntil := b.blockedUntil.erase ip
        lastBlockTime := b.lastBlockTime.erase ip })) lifted with
    ⟨hwritten, t, hbooks, hrun⟩ | ⟨hnot, e, t, hbooks, hrun⟩
  · rw [hrun]
    refine Or.inl ⟨⟨hwritten.2.1, hwritten.2.2⟩, rfl, ⟨hbooks.firewall, ?_, ?_, hbooks.blockCounts⟩⟩
    · exact congrArg (fun ledger => Dict.erase ledger ip) hbooks.blockedUntil
    · exact congrArg (fun ledger => Dict.erase ledger ip) hbooks.lastBlockTime
  · rw [hrun]
    exact Or.inr ⟨fun hwritten => hnot ⟨hdated, hwritten.1, hwritten.2⟩, ⟨e, rfl⟩, hbooks⟩

theorem PartlySwept.cons {fw : FirewallAdapter Φ Ω} {h : Host Ω} {ip : String}
    {ips : List String} {b b' : AutoBlocker Φ}
    (hswept : PartlySwept (some fw) h ips (AutoBlocker.expireOne fw h b ip) b') :
    PartlySwept (some fw) h (ip :: ips) b b' := by
  obtain ⟨⟨asked, dropped, hasked, hdropped, hfirewall, huntil, hlast⟩, hcounts⟩ := hswept
  exact ⟨⟨ip :: asked, ip :: dropped, List.cons_prefix_cons.mpr ⟨rfl, hasked⟩,
    List.cons_prefix_cons.mpr ⟨rfl, hdropped⟩, hfirewall, huntil, hlast⟩, hcounts⟩

/-- The sweep comes to its end exactly when all its lines are written, and leaves then what it
leaves of the blocker alone; otherwise it stops behind a block it has lifted. -/
theorem sweep_cases (fw : FirewallAdapter Φ Ω) (h : LoggedHost Ω) (due : List String)
    {b : AutoBlocker Φ} {s : LoggedBlocker Φ} (hb : b.SameBooks s.blocker) :
    (LinesWritten fw h due s ∧ (due.forM (expireOne fw h) s).1 = .ok () ∧
        (due.foldl (AutoBlocker.expireOne fw h.host) b).SameBooks
          (due.forM (expireOne fw h) s).2.blocker) ∨
      (¬ LinesWritten fw h due s ∧ (∃ e, (due.forM (expireOne fw h) s).1 = .error e) ∧
        PartlySwept (some fw) h.host due b (due.forM (expireOne fw h) s).2.blocker) := by
  induction due generalizing b s with
  | nil => exact Or.inl ⟨trivial, rfl, hb⟩
  | cons ip due ih =>
    have hone := expireOne_cases fw h ip s
    have hnext := hb.expireOne fw h.host ip
    rcases hrun : expireOne fw h ip s with ⟨result, t⟩
    rw [hrun] at hone
    rcases hone with ⟨hline, hok, hbooks⟩ | ⟨hline, ⟨e, herror⟩, hbooks⟩
    · obtain rfl : result = .ok () := hok
      rw [Effect.forM_cons_of_ok due hrun]
      have hsnd : (expireOne fw h ip s).2 = t := by rw [hrun]
      rcases ih (hnext.trans hbooks) with ⟨hlines, hok, hswept⟩ | ⟨hlines, herror, hswept⟩
      · exact Or.inl ⟨⟨hline, hsnd ▸ hlines⟩, hok, hswept⟩
      · exact Or.inr ⟨fun hall => hlines (hsnd ▸ hall.2), herror, hswept.cons⟩
    · obtain rfl : result = .error e := herror
      rw [Effect.forM_cons_of_error due hrun]
      refine Or.inr ⟨fun hall => hline hall.1, ⟨e, rfl⟩,
        ⟨[ip], [], by simp, List.nil_prefix, ?_, ?_, ?_⟩, ?_⟩
      · rw [hbooks.firewall, hb.firewall]
        rfl
      · exact hbooks.blockedUntil.trans hb.blockedUntil
      · exact hbooks.lastBlockTime.trans hb.lastBlockTime
      · exact hbooks.blockCounts.trans hb.blockCounts

theorem expireBlocks_cases (fw : Option (FirewallAdapter Φ Ω)) (h : LoggedHost Ω)
    (s : LoggedBlocker Φ) :
    (SweepWritten fw h s ∧ (expireBlocks fw h s).1 = .ok () ∧
        (AutoBlocker.expireBlocks fw h.host s.blocker).SameBooks
          (expireBlocks fw h s).2.blocker) ∨
      (¬ SweepWritten fw h s ∧ (∃ e, (expireBlocks fw h s).1 = .error e) ∧
        PartlySwept fw h.host (s.blocker.expired h.host.clock.expireTime) s.blocker
          (expireBlocks fw h s).2.blocker) := by
  cases fw with
  | none => exact Or.inl ⟨trivial, rfl, .refl _⟩
  | some fw => exact sweep_cases fw h _ (.refl s.blocker)

/-! ## Blocking -/

/-- The two lines of a block that is granted are written. -/
structure BlockWritten (fw : FirewallAdapter Φ Ω) (h : LoggedHost Ω) (ip : String)
    (duration : ℤ) (s : LoggedBlocker Φ) : Prop where
  recorded : RecordWritten h.logging duration ((s.blocker.blockCounts.get? ip).getD 0 +
    if fw.isBlocked h.host.outcomes ip s.blocker.firewall then 0 else 1)
  noted : s.activityTracker.Accepts ⟨⟨ip,
    if fw.isBlocked h.host.outcomes ip s.blocker.firewall then "already_blocked_activity"
    else "block_action", "blocked", h.host.clock.now⟩, h.logging.notedAt, h.logging.activity⟩

theorem blockWritten_iff {fw : FirewallAdapter Φ Ω} {h : LoggedHost Ω} {ip : String}
    {duration : ℤ} {s : LoggedBlocker Φ} {blocked : Bool}
    (hblocked : fw.isBlocked h.host.outcomes ip s.blocker.firewall = blocked) :
    BlockWritten fw h ip duration s ↔
      RecordWritten h.logging duration
          ((s.blocker.blockCounts.get? ip).getD 0 + if blocked then 0 else 1) ∧
        s.activityTracker.Accepts ⟨⟨ip, if blocked then "already_blocked_activity"
          else "block_action", "blocked", h.host.clock.now⟩, h.logging.notedAt,
          h.logging.activity⟩ := by
  subst hblocked
  exact ⟨fun hwritten => ⟨hwritten.recorded, hwritten.noted⟩, fun hboth => ⟨hboth.1, hboth.2⟩⟩

/-- Writing the two lines of a granted block: the books stay as they are, and the call goes on
exactly when both are written. -/
theorem logBlock_cases (h : LoggedHost Ω) (status ip : String) (duration : ℤ)
    (attackType : String) (answer : Bool × String) (s : LoggedBlocker Φ) :
    let run := (record h.host h.logging status ip duration >>= fun _ =>
      recordDetectionActivity h.logging ip attackType "blocked" h.host.clock.now >>= fun _ =>
      (pure answer : Effect PyError (LoggedBlocker Φ) (Bool × String))) s
    s.blocker.SameBooks run.2.blocker ∧
      ((∃ answer', run.1 = .ok answer') ↔ (Dated h.host duration ∧
        RecordWritten h.logging duration ((s.blocker.blockCounts.get? ip).getD 0) ∧
        s.activityTracker.Accepts ⟨⟨ip, attackType, "blocked", h.host.clock.now⟩,
          h.logging.notedAt, h.logging.activity⟩)) ∧
      ∀ answer', run.1 = .ok answer' → answer' = answer := by
  dsimp only
  rcases log_cases h.host h.logging status ip duration attackType "blocked" h.host.clock.now
      (pure answer) s with ⟨hwritten, t, hbooks, hrun⟩ | ⟨hnot, e, t, hbooks, hrun⟩
  · rw [hrun]
    exact ⟨hbooks, iff_of_true ⟨answer, rfl⟩ hwritten, fun _ hok => (Except.ok.inj hok).symm⟩
  · rw [hrun]
    exact ⟨hbooks, iff_of_false (by simp) hnot, fun _ hok => absurd hok (by simp)⟩

/-- Logging a granted block leaves the books of the blocker alone as they are, too. -/
theorem sameBooks_log (h : Host Ω) (status ip : String) (duration : ℤ) (attackType : String)
    (answer : Bool × String) (b : AutoBlocker Φ) :
    b.SameBooks ((AutoBlocker.record h status ip duration >>= fun _ =>
      Effect.modify (fun b => b.recordDetectionActivity ip attackType "blocked" h.clock.now) >>=
        fun _ => (pure answer : Effect PyError (AutoBlocker Φ) (Bool × String))) b).2 := by
  rw [Effect.bind_apply, AutoBlocker.record_apply]
  cases AutoBlocker.recordedUntil h duration with
  | error e => exact .refl b
  | ok until_ => exact ⟨rfl, rfl, rfl, rfl⟩

/-- What `enforce` of the blocker leaves depends on the firewall and the books alone. -/
theorem sameBooks_enforce {b b' : AutoBlocker Φ} (hb : b.SameBooks b')
    (fw : FirewallAdapter Φ Ω) (h : Host Ω) (ip : String) (duration : ℤ) :
    (AutoBlocker.enforce fw h ip duration b).2.SameBooks
      (AutoBlocker.enforce fw h ip duration b').2 := by
  unfold AutoBlocker.enforce
  rw [Effect.bind_of_ok (Effect.get_apply b), Effect.bind_of_ok (Effect.get_apply b'),
    hb.firewall]
  cases fw.isBlocked h.outcomes ip b.firewall with
  | true =>
    rw [if_pos rfl, Effect.bind_apply, Effect.bind_apply, AutoBlocker.grant_apply,
      AutoBlocker.grant_apply, hb.lastBlockTime, hb.blockedUntil]
    split_ifs with hfits
    · refine (sameBooks_log _ _ _ _ _ _ _).symm.trans (.trans ?_ (sameBooks_log _ _ _ _ _ _ _))
      exact ⟨hb.firewall, rfl, rfl, hb.blockCounts⟩
    · exact ⟨hb.firewall, rfl, rfl, hb.blockCounts⟩
  | false =>
    rw [if_neg Bool.false_ne_true, Effect.bind_of_ok (Effect.modify_apply _ b),
      Effect.bind_of_ok (Effect.modify_apply _ b')]
    cases (fw.blockIp h.outcomes ip b.firewall).1.1 with
    | false => exact ⟨rfl, hb.blockedUntil, hb.lastBlockTime, hb.blockCounts⟩
    | true =>
      rw [if_pos rfl, Effect.bind_apply, Effect.bind_apply, AutoBlocker.grant_apply,
        AutoBlocker.grant_apply, hb.lastBlockTime, hb.blockedUntil]
      split_ifs with hfits
      · refine (sameBooks_log _ _ _ _ _ _ _).symm.trans (.trans ?_ (sameBooks_log _ _ _ _ _ _ _))
        exact ⟨rfl, rfl, rfl, by rw [hb.blockCounts]⟩
      · exact ⟨rfl, rfl, rfl, hb.blockCounts⟩

/-- The firewall and the books after `enforce` are those the blocker alone leaves, whether and
where a write fails; the call returns exactly when nothing is granted or both lines are written,
and then with the answer of the firewall. -/
theorem enforce_spec (fw : FirewallAdapter Φ Ω) (h : LoggedHost Ω) (ip : String) (duration : ℤ)
    (s : LoggedBlocker Φ) :
    (AutoBlocker.enforce fw h.host ip duration s.blocker).2.SameBooks
        (enforce fw h ip duration s).2.blocker ∧
      ((∃ answer, (enforce fw h ip duration s).1 = .ok answer) ↔
        (AutoBlocker.accepts fw h.host.outcomes ip s.blocker.firewall = true →
          Dated h.host duration ∧ BlockWritten fw h ip duration s)) ∧
      ∀ answer, (enforce fw h ip duration s).1 = .ok answer →
        answer = AutoBlocker.answerOf fw h.host.outcomes ip s.blocker.firewall := by
  have hfit : Dated h.host duration → FitsDouble (max 1 duration) := Dated.fitsDouble
  unfold enforce AutoBlocker.enforce
  rw [Effect.bind_of_ok (Effect.get_apply s), Effect.bind_of_ok (Effect.get_apply s.blocker)]
  cases hblocked : fw.isBlocked h.host.outcomes ip s.blocker.firewall with
  | true =>
    have haccepts : AutoBlocker.accepts fw h.host.outcomes ip s.blocker.firewall = true := by
      simp [AutoBlocker.accepts, hblocked]
    have hgrant := AutoBlocker.grant_apply h.host ip duration s.blocker
    have hof : AutoBlocker.answerOf fw h.host.outcomes ip s.blocker.firewall =
        (true, "already_blocked") := if_pos hblocked
    rw [hof, if_pos rfl, if_pos rfl, Effect.bind_apply, Effect.bind_apply, onBlocker,
      Effect.zoom_apply, hgrant]
    split_ifs with hfits
    · obtain ⟨hbooks, hreturns, hanswer⟩ := logBlock_cases h "already_blocked" ip duration
        "already_blocked_activity" (true, "already_blocked") { s with blocker := { s.blocker with
          lastBlockTime := s.blocker.lastBlockTime.set ip h.host.clock.now
          blockedUntil := s.blocker.blockedUntil.set ip
            (h.host.clock.now + (max 1 duration : ℤ)) } }
      refine ⟨(sameBooks_log _ _ _ _ _ _ _).symm.trans hbooks, hreturns.trans ?_, hanswer⟩
      rw [blockWritten_iff hblocked]
      exact ⟨fun hall _ => hall, fun hall => hall haccepts⟩
    · exact ⟨.refl _, iff_of_false (by simp) fun hall => hfits (hfit (hall haccepts).1),
        fun _ hok => absurd hok (by simp)⟩
  | false =>
    have haccepts : AutoBlocker.accepts fw h.host.outcomes ip s.blocker.firewall =
        (fw.blockIp h.host.outcomes ip s.blocker.firewall).1.1 := by
      simp [AutoBlocker.accepts, hblocked]
    have hof : AutoBlocker.answerOf fw h.host.outcomes ip s.blocker.firewall =
        (fw.blockIp h.host.outcomes ip s.blocker.firewall).1 :=
      if_neg (Bool.eq_false_iff.mp hblocked)
    rw [hof, if_neg Bool.false_ne_true, if_neg Bool.false_ne_true,
      Effect.bind_of_ok (Effect.modify_apply _ _), haccepts]
    have hon : onBlocker (Effect.modify fun b : AutoBlocker Φ =>
        { b with firewall := (fw.blockIp h.host.outcomes ip s.blocker.firewall).2 }) s =
        (.ok (), { s with blocker := { s.blocker with
          firewall := (fw.blockIp h.host.outcomes ip s.blocker.firewall).2 } }) := rfl
    rw [Effect.bind_of_ok hon]
    cases hok : (fw.blockIp h.host.outcomes ip s.blocker.firewall).1.1 with
    | false =>
      exact ⟨.refl _, iff_of_true ⟨_, rfl⟩ fun hfalse => absurd hfalse Bool.false_ne_true,
        fun _ hanswer => (Except.ok.inj hanswer).symm⟩
    | true =>
      have hgrant := AutoBlocker.grant_apply h.host ip duration { s.blocker with
        firewall := (fw.blockIp h.host.outcomes ip s.blocker.firewall).2 }
      rw [if_pos rfl, if_pos rfl, Effect.bind_apply, Effect.bind_apply, onBlocker,
        Effect.zoom_apply, hgrant]
      split_ifs with hfits
      · obtain ⟨hbooks, hreturns, hanswer⟩ := logBlock_cases h
          (fw.blockIp h.host.outcomes ip s.blocker.firewall).1.2 ip duration "block_action"
          (fw.blockIp h.host.outcomes ip s.blocker.firewall).1 { s with blocker := { s.blocker with
            firewall := (fw.blockIp h.host.outcomes ip s.blocker.firewall).2
            lastBlockTime := s.blocker.lastBlockTime.set ip h.host.clock.now
            blockedUntil := s.blocker.blockedUntil.set ip
              (h.host.clock.now + (max 1 duration : ℤ))
            blockCounts := s.blocker.blockCounts.set ip
              ((s.blocker.blockCounts.get? ip).getD 0 + 1) } }
        refine ⟨(sameBooks_log _ _ _ _ _ _ _).symm.trans hbooks, hreturns.trans ?_, hanswer⟩
        rw [blockWritten_iff hblocked]
        dsimp only
        rw [Dict.get?_set_self]
        exact ⟨fun hall _ => hall, fun hall => hall rfl⟩
      · exact ⟨.refl _, iff_of_false (by simp) fun hall => hfits (hfit (hall rfl).1),
          fun _ hok => absurd hok (by simp)⟩

end LoggedBlocker

end SmartIDS.ResponseEngine
