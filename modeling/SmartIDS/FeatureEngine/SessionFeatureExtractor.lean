import Mathlib.Algebra.Order.Group.Unbundled.Abs
import Mathlib.Data.Rat.Cast.Defs
import SmartIDS.FeatureEngine.Stats
import SmartIDS.ML.FeatureSchema
import SmartIDS.Python.Value
import SmartIDS.TrafficEngine.RunningStats
set_option autoImplicit false

/-!
# FeatureEngine: the session feature extractor

`feature_engine/extractors/session_feature_extractor.py`.  `extract` returns the
features of a session in the order of `FEATURE_COLUMNS` and, if the validation of
the incremental statistics is switched on, the warnings it logs.
-/

namespace SmartIDS.FeatureEngine

open SmartIDS.Foundation SmartIDS.ML SmartIDS.Python SmartIDS.TrafficEngine

variable {R : Type} [Field R]

/-- `_DIVERGENCE_REL_TOL`. -/
def divergenceRelTol : ℚ := 1 / 1000000

/-- `_DIVERGENCE_ABS_TOL`. -/
def divergenceAbsTol : ℚ := 1 / 1000000

/-- `math.isclose`. -/
def isclose [LinearOrder R] (a b relTol absTol : R) : Bool :=
  |a - b| ≤ |relTol * b| || |a - b| ≤ |relTol * a| || |a - b| ≤ absTol

open TrafficSession in
/-- `feature_values`. -/
def featureValues (sqrt : ℚ → R) (session : TrafficSession) : List (String × R) :=
  let flowDuration := session.duration
  let packetLengths := floats session.packetLengths
  let fwdPacketLengths := floats session.fwdPacketLengths
  let flowIat := safeIatStats sqrt session.packetTimestamps
  let fwdIat := safeIatStats sqrt session.fwdPacketTimestamps
  [("dst_port", ((session.dstPort.getD 0 : ℕ) : R)),
    ("protocol", ((session.protocol : ℕ) : R)),
    ("flow_duration", ((flowDuration : ℚ) : R)),
    ("total_fwd_packets", ((session.fwdPacketCount : ℕ) : R)),
    ("total_fwd_bytes", ((session.fwdTotalBytes : ℤ) : R)),
    ("flow_bytes_per_sec", ((safeRate session.totalBytes (some flowDuration) : ℚ) : R)),
    ("flow_packets_per_sec", ((safeRate session.packetCount (some flowDuration) : ℚ) : R)),
    ("packet_len_min", ((safeMin packetLengths : ℚ) : R)),
    ("packet_len_max", ((safeMax packetLengths : ℚ) : R)),
    ("packet_len_mean", ((safeMean packetLengths : ℚ) : R)),
    ("packet_len_std", safeStd sqrt packetLengths),
    ("packet_len_variance", ((safeVariance packetLengths : ℚ) : R)),
    ("avg_packet_size", ((session.averagePacketSize : ℚ) : R)),
    ("fwd_packet_len_min", ((safeMin fwdPacketLengths : ℚ) : R)),
    ("fwd_packet_len_max", ((safeMax fwdPacketLengths : ℚ) : R)),
    ("fwd_packet_len_mean", ((safeMean fwdPacketLengths : ℚ) : R)),
    ("fwd_packet_len_std", safeStd sqrt fwdPacketLengths),
    ("flow_iat_min", ((flowIat.min : ℚ) : R)),
    ("flow_iat_max", ((flowIat.max : ℚ) : R)),
    ("flow_iat_mean", ((flowIat.mean : ℚ) : R)),
    ("flow_iat_std", flowIat.std),
    ("fwd_iat_min", ((fwdIat.min : ℚ) : R)),
    ("fwd_iat_max", ((fwdIat.max : ℚ) : R)),
    ("fwd_iat_mean", ((fwdIat.mean : ℚ) : R)),
    ("fwd_iat_std", fwdIat.std),
    ("fwd_iat_total", ((fwdIat.total : ℚ) : R)),
    ("fwd_packets_per_sec", ((safeRate session.fwdPacketCount (some flowDuration) : ℚ) : R)),
    ("fin_flag_count", ((session.flagCounts.fin : ℕ) : R)),
    ("syn_flag_count", ((session.flagCounts.syn : ℕ) : R)),
    ("rst_flag_count", ((session.flagCounts.rst : ℕ) : R)),
    ("psh_flag_count", ((session.flagCounts.psh : ℕ) : R)),
    ("ack_flag_count", ((session.flagCounts.ack : ℕ) : R)),
    ("urg_flag_count", ((session.flagCounts.urg : ℕ) : R)),
    ("fwd_header_length", ((session.fwdHeaderLength : ℤ) : R)),
    ("init_win_bytes_forward", ((session.initWinBytesForward.getD 0 : ℤ) : R)),
    ("act_data_pkt_fwd", ((session.actDataPktFwd : ℕ) : R)),
    ("min_seg_size_forward", ((session.minSegSizeForward.getD 0 : ℤ) : R))]

/-- `incremental_values`. -/
def incrementalValues (sqrt : ℚ → R) (session : TrafficSession) : List (String × R) :=
  [("packet_len_min", ((session.packetLengthStats.getMin : ℚ) : R)),
    ("packet_len_max", ((session.packetLengthStats.getMax : ℚ) : R)),
    ("packet_len_mean", ((session.packetLengthStats.getMean : ℚ) : R)),
    ("packet_len_std", session.packetLengthStats.std sqrt),
    ("packet_len_variance", ((session.packetLengthStats.variance : ℚ) : R)),
    ("fwd_packet_len_min", ((session.fwdPacketLengthStats.getMin : ℚ) : R)),
    ("fwd_packet_len_max", ((session.fwdPacketLengthStats.getMax : ℚ) : R)),
    ("fwd_packet_len_mean", ((session.fwdPacketLengthStats.getMean : ℚ) : R)),
    ("fwd_packet_len_std", session.fwdPacketLengthStats.std sqrt)]

/-- A warning that the incremental value of a field diverged. -/
structure Divergence (R : Type) where
  field : String
  listBasedValue : R
  incrementalValue : R
  delta : R
  sessionPacketCount : ℕ

section Validation

variable [LinearOrder R]

/-- The body of the loop of `_validate_against_incremental_stats`: the warning
for a field, if there is one.  A field that is no feature is a `KeyError`. -/
def validateField (features : List (String × R)) (packetCount : ℕ) (incremental : String × R) :
    Except PyError (Option (Divergence R)) :=
  match features.lookup incremental.1 with
  | none => .error .other
  | some listBasedValue =>
    if isclose listBasedValue incremental.2 (divergenceRelTol : R) (divergenceAbsTol : R) then
      .ok none
    else
      .ok (some
        { field := incremental.1
          listBasedValue := listBasedValue
          incrementalValue := incremental.2
          delta := incremental.2 - listBasedValue
          sessionPacketCount := packetCount })

/-- `_validate_against_incremental_stats`: the warnings it logs. -/
def validateAgainstIncrementalStats (sqrt : ℚ → R) (session : TrafficSession)
    (features : List (String × R)) : Except PyError (List (Divergence R)) := do
  let warnings ← (incrementalValues sqrt session).mapM
    (validateField features session.packetCount)
  return warnings.reduceOption

/-- What a call of `extract` returns and the warnings it logs. -/
structure Extraction (R : Type) where
  features : List (String × R)
  warnings : List (Divergence R)

/-- `extract`; `validate` is `_validate_incremental_stats`. -/
def extract (sqrt : ℚ → R) (validate : Bool) (session : TrafficSession) :
    Except PyError (Extraction R) := do
  let features := featureValues sqrt session
  let warnings ←
    if validate then validateAgainstIncrementalStats sqrt session features else pure []
  let sanitized := sanitizeFeatureDict (features.map fun feature => (feature.1, some feature.2))
  return ⟨featureColumns.map fun column => (column, (sanitized.lookup column).getD 0), warnings⟩

end Validation

/-! ## The vector -/

/-- The dictionary lists the columns in their order. -/
theorem map_fst_featureValues (sqrt : ℚ → R) (session : TrafficSession) :
    (featureValues sqrt session).map Prod.fst = featureColumns := rfl

/-- Reading every key of a dictionary, in order, gives the dictionary back. -/
theorem map_lookup_keys {α β : Type} [DecidableEq α] (entries : List (α × β)) (default : β)
    (hnodup : (entries.map Prod.fst).Nodup) :
    ((entries.map Prod.fst).map fun key => (key, (entries.lookup key).getD default)) = entries := by
  induction entries with
  | nil => rfl
  | cons e rest ih =>
    obtain ⟨name, value⟩ := e
    rw [List.map_cons, List.nodup_cons] at hnodup
    rw [List.map_cons, List.map_cons]
    congr 1
    · rw [List.lookup_cons_self, Option.getD_some]
    · refine Eq.trans (List.map_congr_left ?_) (ih hnodup.2)
      intro key hkey
      have hne : (key == name) = false := by
        rw [beq_eq_false_iff_ne]
        exact fun heq => hnodup.1 (heq ▸ hkey)
      rw [List.lookup_cons, hne]

theorem sanitizeFeatureDict_some (features : List (String × R)) :
    sanitizeFeatureDict (features.map fun feature => (feature.1, some feature.2)) = features := by
  unfold sanitizeFeatureDict
  rw [List.map_map]
  exact List.map_id _

/-- The features come out as they were computed. -/
theorem features_extract [LinearOrder R] (sqrt : ℚ → R) (session : TrafficSession) :
    extract sqrt false session = .ok ⟨featureValues sqrt session, []⟩ := by
  have hvector := map_lookup_keys (featureValues sqrt session) (0 : R)
    (by rw [map_fst_featureValues]; exact nodup_featureColumns)
  rw [map_fst_featureValues] at hvector
  simp only [extract, sanitizeFeatureDict_some, hvector]
  rfl

end SmartIDS.FeatureEngine
