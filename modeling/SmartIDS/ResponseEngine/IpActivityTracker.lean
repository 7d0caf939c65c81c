import Mathlib.Data.Finset.Sort
import Mathlib.Data.List.Sort
import SmartIDS.Foundation.Dict
import SmartIDS.Python.Datetime
import SmartIDS.Python.SplitLines
import SmartIDS.ResponseEngine.ProcessedCommandStore
set_option autoImplicit false

/-!
# ResponseEngine: the IP activity tracker

`response_engine/ip_activity_tracker.py`.  What is known of an IP is kept in memory,
and every record is appended to a log file of one JSON object a line.  Both are
bounded: an IP too many evicts the one with the oldest activity, and every so many
records the log is cut down to its newest lines.  What the disk does in a call is a
parameter of the call.
-/

namespace SmartIDS.ResponseEngine

open SmartIDS.Foundation SmartIDS.PacketCapture SmartIDS.Python

/-! ## Limits -/

/-- `_positive_int`, which is the method of `ProcessedCommandStore`, as a number. -/
def positiveNat (value : Option ℤ) (env : Option String) (default : ℕ) : ℕ :=
  (positiveInt value env default).toNat

theorem positiveNat_pos (value : Option ℤ) (env : Option String) (default : ℕ) :
    0 < positiveNat value env default := Int.lt_toNat.mpr (positiveInt_pos _ _ _)

/-- The limits of a tracker; all are positive. -/
structure TrackerLimits where
  maxTrackedIps : ℕ
  maxActionHistory : ℕ
  maxFileEntries : ℕ
  fileCompactionIntervalRecords : ℕ
  maxTrackedIps_pos : 0 < maxTrackedIps
  maxActionHistory_pos : 0 < maxActionHistory
  maxFileEntries_pos : 0 < maxFileEntries
  interval_pos : 0 < fileCompactionIntervalRecords

/-- The limits `__init__` sets. -/
def TrackerLimits.init (maxTrackedIps maxActionHistory maxFileEntries
    fileCompactionIntervalRecords : Option ℤ) (getenv : String → Option String) :
    TrackerLimits where
  maxTrackedIps := positiveNat maxTrackedIps (getenv "SMARTIDS_IP_ACTIVITY_MAX_TRACKED_IPS") 10000
  maxActionHistory :=
    positiveNat maxActionHistory (getenv "SMARTIDS_IP_ACTIVITY_MAX_ACTION_HISTORY") 25
  maxFileEntries :=
    positiveNat maxFileEntries (getenv "SMARTIDS_IP_ACTIVITY_MAX_FILE_ENTRIES") 50000
  fileCompactionIntervalRecords :=
    positiveNat fileCompactionIntervalRecords
      (getenv "SMARTIDS_IP_ACTIVITY_FILE_COMPACTION_INTERVAL_RECORDS") 100
  maxTrackedIps_pos := positiveNat_pos _ _ _
  maxActionHistory_pos := positiveNat_pos _ _ _
  maxFileEntries_pos := positiveNat_pos _ _ _
  interval_pos := positiveNat_pos _ _ _

/-! ## What is kept of an IP -/

/-- An entry of `action_history`. -/
structure ActionEntry where
  timestamp : String
  action : String
  attackType : String
  deriving DecidableEq

/-- What is kept of an IP. -/
structure IpActivity where
  firstDetectedTime : String
  lastDetectedTime : String
  totalAttackAttempts : ℕ
  attackTypesUsed : Finset String
  actionHistory : List ActionEntry
  deriving DecidableEq

/-- The arguments of `record_activity`. -/
structure ActivityRecord where
  ipAddress : String
  attackType : String
  action : String
  timestamp : Time

namespace IpActivity

/-- What is entered for an IP that is not tracked. -/
def fresh (nowIso : String) : IpActivity := ⟨nowIso, nowIso, 0, ∅, []⟩

/-- One record more. -/
def note (maxActionHistory : ℕ) (nowIso : String) (r : ActivityRecord) (a : IpActivity) :
    IpActivity where
  firstDetectedTime := a.firstDetectedTime
  lastDetectedTime := nowIso
  totalAttackAttempts := a.totalAttackAttempts + 1
  attackTypesUsed := insert r.attackType a.attackTypesUsed
  actionHistory :=
    BoundedFifo.newest maxActionHistory (a.actionHistory ++ [⟨nowIso, r.action, r.attackType⟩])

/-- `attempt_pattern`. -/
def attemptPattern (a : IpActivity) : String :=
  if 1 < a.totalAttackAttempts then "repeated_attempts" else "single_attempt"

end IpActivity

/-- An entry as it is logged. -/
def ActionEntry.dumps (e : ActionEntry) : String :=
  jsonObject [("timestamp", jsonString e.timestamp), ("action", jsonString e.action),
    ("attack_type", jsonString e.attackType)]

/-- `json.dumps(payload, ensure_ascii=True)`. -/
def IpActivity.payload (maxActionHistory : ℕ) (ipAddress : String) (recordedAt : Datetime)
    (a : IpActivity) : String :=
  jsonObject [("ip", jsonString ipAddress),
    ("first_detected_time", jsonString a.firstDetectedTime),
    ("last_detected_time", jsonString a.lastDetectedTime),
    ("total_attack_attempts", toString a.totalAttackAttempts),
    ("attack_types_used", jsonArray ((a.attackTypesUsed.sort (· ≤ ·)).map jsonString)),
    ("attempt_pattern", jsonString a.attemptPattern),
    ("action_history",
      jsonArray ((BoundedFifo.newest maxActionHistory a.actionHistory).map ActionEntry.dumps)),
    ("recorded_at_utc", jsonString recordedAt.isoformat)]

/-! ## The tracker -/

/-- What a write to a file comes to. -/
inductive Writing where
  | done
  /-- The file cannot be opened. -/
  | refused
  /-- The write fails after some bytes. -/
  | torn (bytes : ℕ)
  deriving DecidableEq

/-- What the disk does during one call.  No call appends, reads or rewrites twice. -/
structure LogDisk where
  appends : Writing
  reads : Bool
  rewrites : Writing
  deriving DecidableEq

/-- No file operation fails. -/
def LogDisk.working : LogDisk := ⟨.done, true, .done⟩

/-- `IPActivityTracker`. -/
structure IPActivityTracker where
  limits : TrackerLimits
  state : Dict String IpActivity
  recordsSinceCompaction : ℕ
  file : File

/-- `open("a")` and `write`. -/
def appendText (writing : Writing) (text : String) : Effect PyError File Unit :=
  match writing with
  | .done => Effect.modify fun file => file.extend text.toUTF8
  | .refused => Effect.ofExcept (.error .osError)
  | .torn bytes => do
    Effect.modify fun file => file.extend (text.toUTF8.extract 0 bytes)
    Effect.ofExcept (.error .osError)

/-- `write_text`; opening the file empties it. -/
def writeText (writing : Writing) (text : String) : Effect PyError File Unit :=
  match writing with
  | .done => Effect.modify fun _ => some text.toUTF8
  | .refused => Effect.ofExcept (.error .osError)
  | .torn bytes => do
    Effect.modify fun _ => some (text.toUTF8.extract 0 bytes)
    Effect.ofExcept (.error .osError)

namespace IPActivityTracker

/-- `__init__` over a file. -/
def init (limits : TrackerLimits) (file : File) : IPActivityTracker := ⟨limits, .empty, 0, file⟩

/-- An operation on the file of the tracker. -/
def onFile (x : Effect PyError File Unit) : Effect PyError IPActivityTracker Unit :=
  Effect.zoom file (fun file s => { s with file := file }) x

/-- `self._state[ip_address]["last_detected_time"]`. -/
def lastDetectedOf (s : IPActivityTracker) (ipAddress : String) : String :=
  ((s.state.get? ipAddress).map IpActivity.lastDetectedTime).getD ""

/-- `_prune_state`. -/
def pruneState (s : IPActivityTracker) : IPActivityTracker :=
  if s.state.size ≤ s.limits.maxTrackedIps then s
  else
    let overflow := s.state.size - s.limits.maxTrackedIps
    let orderedIps := s.state.keys.insertionSort fun a b => s.lastDetectedOf a ≤ s.lastDetectedOf b
    { s with state := (orderedIps.take overflow).foldl Dict.erase s.state }

/-- What is known of the IP once the record is entered. -/
def activity (s : IPActivityTracker) (nowIso : String) (r : ActivityRecord) : IpActivity :=
  ((s.state.get? r.ipAddress).getD (.fresh nowIso)).note s.limits.maxActionHistory nowIso r

/-- `_compact_file_if_needed`. -/
def compactFileIfNeeded (disk : LogDisk) : Effect PyError IPActivityTracker Unit := do
  let s ← Effect.get
  if s.recordsSinceCompaction < s.limits.fileCompactionIntervalRecords then return
  Effect.modify fun s => { s with recordsSinceCompaction := 0 }
  match if disk.reads then readText s.file else .error .osError with
  | .error .osError => return
  | .error e => Effect.ofExcept (.error e)
  | .ok text =>
    let lines := (splitlines text.toList).map String.ofList
    if lines.length ≤ s.limits.maxFileEntries then return
    onFile (writeText disk.rewrites
      (joinedLines (BoundedFifo.newest s.limits.maxFileEntries lines)))

/-- `record_activity`; `recordedAt` is the time on the clock when it is logged. -/
def recordActivity (r : ActivityRecord) (recordedAt : Datetime) (disk : LogDisk) :
    Effect PyError IPActivityTracker Unit := do
  let now ← Effect.ofExcept (Datetime.fromTimestamp r.timestamp)
  let s ← Effect.get
  let a := s.activity now.isoformat r
  Effect.modify fun s => { s with state := s.state.set r.ipAddress a }
  Effect.modify pruneState
  onFile (appendText disk.appends
    (a.payload s.limits.maxActionHistory r.ipAddress recordedAt ++ "\n"))
  Effect.modify fun s => { s with recordsSinceCompaction := s.recordsSinceCompaction + 1 }
  compactFileIfNeeded disk

end IPActivityTracker

end SmartIDS.ResponseEngine
