import Mathlib.Analysis.Real.Sqrt
import SmartIDS.FeatureEngine.SessionFeatureExtractor
import SmartIDS.TrafficEngine.BuilderCalls
set_option autoImplicit false

/-!
# FeatureEngine: the incremental statistics are the batch ones

Every session of the builder carries accumulators beside its lists of packet
lengths.  Their getters return what the helpers compute from the lists, so that
the validation finds nothing to warn about.
-/

namespace SmartIDS.FeatureEngine

open SmartIDS.Foundation SmartIDS.PacketCapture SmartIDS.Python SmartIDS.TrafficEngine
  TrafficSession

/-- `math.sqrt` in exact arithmetic. -/
noncomputable def exactSqrt (value : ℚ) : ℝ := √(value : ℝ)

theorem exactSqrt_zero : exactSqrt 0 = 0 := by
  rw [exactSqrt, Rat.cast_zero, Real.sqrt_zero]

/-! ## One accumulator -/

/-- The getters of an accumulator return the statistics of a list. -/
structure Agrees (stats : RunningStats) (values : List ℚ) : Prop where
  min : stats.getMin = safeMin values
  max : stats.getMax = safeMax values
  mean : stats.getMean = safeMean values
  variance : stats.variance = safeVariance values
  /-- the variance under the standard deviation, whatever the length of the list -/
  underStd : stats.variance = pvariance values

theorem agrees_of_summarises {stats : RunningStats} {values : List ℚ}
    (h : stats.Summarises values) : Agrees stats values := by
  have hvariance : stats.variance = pvariance values := by
    rw [RunningStats.variance, h.count, h.m2]
    split_ifs with hshort
    · -- a list this short deviates nowhere from its mean
      match values, hshort with
      | [], _ => simp [pvariance]
      | [value], _ => simp [pvariance]
    · rfl
  constructor
  · rw [RunningStats.getMin, h.min, safeMin]
    cases values.min? <;> rfl
  · rw [RunningStats.getMax, h.max, safeMax]
    cases values.max? <;> rfl
  · rw [RunningStats.getMean, h.count, h.mean, safeMean_eq]
    split_ifs with hempty
    · rw [List.length_eq_zero_iff.mp hempty, mean_nil]
    · rfl
  · rw [hvariance, safeVariance_eq]
  · exact hvariance

/-- So does `std`, if 0 is the root of 0. -/
theorem Agrees.std {R : Type} [Zero R] {sqrt : ℚ → R} (hsqrt : sqrt 0 = 0) {stats : RunningStats}
    {values : List ℚ} (h : Agrees stats values) : stats.std sqrt = safeStd sqrt values := by
  rw [RunningStats.std, h.underStd, safeStd_eq hsqrt]

/-! ## The validation -/

section Validation

variable {R : Type} [Field R] [LinearOrder R] [IsStrictOrderedRing R]

theorem isclose_self (a relTol absTol : R) : isclose a a relTol absTol = true := by
  have hzero : |a - a| ≤ |relTol * a| := by
    rw [sub_self, abs_zero]
    exact abs_nonneg _
  rw [isclose, decide_eq_true hzero, Bool.true_or, Bool.true_or]

/-- A field whose two values are equal is passed over. -/
theorem validateField_eq {features : List (String × R)} {incremental : String × R}
    (h : features.lookup incremental.1 = some incremental.2) (packetCount : ℕ) :
    validateField features packetCount incremental = .ok none := by
  rw [validateField, h]
  simp only [isclose_self, if_true]

theorem validate_eq_nil {features : List (String × R)} {sqrt : ℚ → R} {session : TrafficSession}
    (h : ∀ e ∈ incrementalValues sqrt session, features.lookup e.1 = some e.2) :
    validateAgainstIncrementalStats sqrt session features = .ok [] := by
  have hall : ∀ incremental : List (String × R), (∀ e ∈ incremental, features.lookup e.1 = some e.2) →
      incremental.mapM (validateField features session.packetCount) =
        .ok (incremental.map fun _ => none) := by
    intro incremental hincremental
    induction incremental with
    | nil => rfl
    | cons e rest ih =>
      rw [List.mapM_cons, validateField_eq (hincremental e List.mem_cons_self),
        ih fun e' he' => hincremental e' (List.mem_cons_of_mem _ he')]
      rfl
  rw [validateAgainstIncrementalStats, hall _ h]
  rfl

end Validation

/-- The features hold what the accumulators of a mirrored session say. -/
theorem lookup_incrementalValues {R : Type} [Field R] {sqrt : ℚ → R} (hsqrt : sqrt 0 = 0)
    {session : TrafficSession} (h : Mirrored session) :
    ∀ e ∈ incrementalValues sqrt session,
      (featureValues sqrt session).lookup e.1 = some e.2 := by
  have hall := agrees_of_summarises h.packetLengths
  have hfwd := agrees_of_summarises h.fwdPacketLengths
  rw [incrementalValues, hall.min, hall.max, hall.mean, hall.std hsqrt, hall.variance, hfwd.min,
    hfwd.max, hfwd.mean, hfwd.std hsqrt]
  intro e he
  simp only [List.mem_cons, List.not_mem_nil, or_false] at he
  rcases he with rfl | rfl | rfl | rfl | rfl | rfl | rfl | rfl | rfl <;> rfl

/-- Incremental statistics equal the batch ones.  Whatever calls the builder has
answered, the accumulators of every session it holds or has handed out agree with
the lists of that session, and the validation logs no warning. -/
theorem incremental_stats_equal_batch (cs : List SessionBuilder.Call) :
    ∀ session ∈ SessionBuilder.sessionsOf cs,
      Agrees session.packetLengthStats (floats session.packetLengths) ∧
        Agrees session.fwdPacketLengthStats (floats session.fwdPacketLengths) ∧
        session.packetLengthStats.std exactSqrt =
          safeStd exactSqrt (floats session.packetLengths) ∧
        session.fwdPacketLengthStats.std exactSqrt =
          safeStd exactSqrt (floats session.fwdPacketLengths) ∧
        validateAgainstIncrementalStats exactSqrt session (featureValues exactSqrt session) =
          .ok [] := by
  intro session hsession
  obtain ⟨-, ms, -, hrecorded, -⟩ := SessionBuilder.builtFrom_of_mem_sessionsOf cs session hsession
  have hmirrored := mirrored_of_recorded hrecorded
  have hall := agrees_of_summarises hmirrored.packetLengths
  have hfwd := agrees_of_summarises hmirrored.fwdPacketLengths
  exact ⟨hall, hfwd, hall.std exactSqrt_zero, hfwd.std exactSqrt_zero,
    validate_eq_nil (lookup_incrementalValues exactSqrt_zero hmirrored)⟩

/-- The first packet of a connection. -/
def synSegment : PacketData where
  srcIp := "10.0.0.5"
  dstIp := "10.0.0.9"
  protocol := 6
  packetSize := 60
  timestamp := 100
  srcPort := some 50000
  dstPort := some 443
  tcpFlags := some 2
  tcpWindowSize := some 64240
  transportHeaderLength := some 40
  payloadSize := some 0

theorem incremental_stats_of_syn :
    ∃ session ∈ SessionBuilder.sessionsOf [.processPacket synSegment],
      Agrees session.packetLengthStats (floats session.packetLengths) ∧
        Agrees session.fwdPacketLengthStats (floats session.fwdPacketLengths) ∧
        session.packetLengthStats.std exactSqrt =
          safeStd exactSqrt (floats session.packetLengths) ∧
        session.fwdPacketLengthStats.std exactSqrt =
          safeStd exactSqrt (floats session.fwdPacketLengths) ∧
        validateAgainstIncrementalStats exactSqrt session (featureValues exactSqrt session) =
          .ok [] := by
  have hsession := SessionBuilder.mem_sessionsOf_processPacket synSegment
  exact ⟨_, hsession, incremental_stats_equal_batch _ _ hsession⟩

end SmartIDS.FeatureEngine
