import SmartIDS.FeatureEngine.IncrementalStats
import SmartIDS.TrafficEngine.DirectedSession
set_option autoImplicit false

/-!
# FeatureEngine: feature vectors of the sessions the builder builds

A session of the builder only ever receives packets of its own direction.  Its
forward features are therefore its flow features again, and a model that is
given them sees no reverse traffic.
-/

namespace SmartIDS.FeatureEngine

open SmartIDS.Foundation SmartIDS.ML SmartIDS.PacketCapture SmartIDS.Python SmartIDS.TrafficEngine
  TrafficSession

/-- The value of a column. -/
def column {R : Type} [Zero R] (vector : List (String × R)) (name : String) : R :=
  (vector.lookup name).getD 0

/-- The statistics a family of columns ends in. -/
def statNames : List String := ["min", "max", "mean", "std"]

/-- The flag columns and their bits. -/
def flagColumns : List (String × ℕ) :=
  [("fin_flag_count", 0x01), ("syn_flag_count", 0x02), ("rst_flag_count", 0x04),
    ("psh_flag_count", 0x08), ("ack_flag_count", 0x10), ("urg_flag_count", 0x20)]

/-- The columns of a family: the least, the mean and the greatest value. -/
def Ordered (vector : List (String × ℝ)) (family : String) : Prop :=
  column vector (family ++ "min") ≤ column vector (family ++ "mean") ∧
    column vector (family ++ "mean") ≤ column vector (family ++ "max")

/-- A vector describes a session of one direction that was built from these
packets. -/
structure Coherent (ps : List PacketData) (session : TrafficSession)
    (vector : List (String × ℝ)) : Prop where
  columns : vector.map Prod.fst = featureColumns
  isForward : ∀ p ∈ ps, session.IsForward p
  packetCount : session.packetCount = ps.length
  totalFwdPackets : column vector "total_fwd_packets" = session.packetCount
  totalFwdBytes : column vector "total_fwd_bytes" = session.totalBytes
  fwdPacketLen : ∀ stat ∈ statNames,
    column vector ("fwd_packet_len_" ++ stat) = column vector ("packet_len_" ++ stat)
  fwdIat : ∀ stat ∈ statNames,
    column vector ("fwd_iat_" ++ stat) = column vector ("flow_iat_" ++ stat)
  fwdPacketsPerSec : column vector "fwd_packets_per_sec" = column vector "flow_packets_per_sec"
  avgPacketSize : column vector "avg_packet_size" = column vector "packet_len_mean"
  ordered : ∀ family ∈ ["packet_len_", "fwd_packet_len_", "flow_iat_", "fwd_iat_"],
    Ordered vector family
  actDataPktFwd : column vector "act_data_pkt_fwd" ≤ column vector "total_fwd_packets"
  minSegSizeForward :
    column vector "min_seg_size_forward" = 0 ↔ column vector "act_data_pkt_fwd" = 0
  flagCounts : ∀ flag ∈ flagColumns,
    column vector flag.1 = (ps.countP (·.hasFlag flag.2) : ℕ)

/-- The mean packet length, counted from the totals or from the list. -/
theorem averagePacketSize_eq {ps : List PacketData} {session : TrafficSession}
    (h : Directed ps session) :
    session.averagePacketSize = safeMean (floats session.packetLengths) := by
  have hsum : (floats session.packetLengths).sum = session.totalBytes := by
    rw [h.packetLengths, h.totalBytes, floats, Int.cast_list_sum]
  have hlen : (floats session.packetLengths).length = session.packetCount := by
    rw [floats, List.length_map, h.packetLengths, List.length_map, h.packetCount]
  rw [safeMean_eq, mean, hsum, hlen, averagePacketSize]
  split_ifs with hempty
  · rw [hempty, Nat.cast_zero, div_zero]
  · rfl

theorem coherent_of_directed {ps : List PacketData} {session : TrafficSession}
    (h : Directed ps session) : Coherent ps session (featureValues exactSqrt session) where
  columns := map_fst_featureValues _ _
  isForward := h.isForward
  packetCount := h.packetCount
  totalFwdPackets := by
    show ((session.fwdPacketCount : ℕ) : ℝ) = _
    rw [h.fwdPacketCount]
  totalFwdBytes := by
    show ((session.fwdTotalBytes : ℤ) : ℝ) = _
    rw [h.fwdTotalBytes]
  fwdPacketLen := by
    simp only [featureValues, h.fwdPacketLengths]
    intro stat hstat
    simp only [statNames, List.mem_cons, List.not_mem_nil, or_false] at hstat
    rcases hstat with rfl | rfl | rfl | rfl <;> rfl
  fwdIat := by
    simp only [featureValues, h.fwdPacketTimestamps]
    intro stat hstat
    simp only [statNames, List.mem_cons, List.not_mem_nil, or_false] at hstat
    rcases hstat with rfl | rfl | rfl | rfl <;> rfl
  fwdPacketsPerSec := by
    simp only [featureValues, h.fwdPacketCount]
    rfl
  avgPacketSize := by
    show ((session.averagePacketSize : ℚ) : ℝ) = ((safeMean (floats session.packetLengths) : ℚ) : ℝ)
    rw [averagePacketSize_eq h]
  ordered := by
    have hiat := fun timestamps => safeIatStats_ordered exactSqrt timestamps
    intro family hfamily
    simp only [List.mem_cons, List.not_mem_nil, or_false] at hfamily
    rcases hfamily with rfl | rfl | rfl | rfl
    · exact ⟨Rat.cast_le.mpr (safeMin_le_safeMean _), Rat.cast_le.mpr (safeMean_le_safeMax _)⟩
    · exact ⟨Rat.cast_le.mpr (safeMin_le_safeMean _), Rat.cast_le.mpr (safeMean_le_safeMax _)⟩
    · exact ⟨Rat.cast_le.mpr (hiat _).1, Rat.cast_le.mpr (hiat _).2⟩
    · exact ⟨Rat.cast_le.mpr (hiat _).1, Rat.cast_le.mpr (hiat _).2⟩
  actDataPktFwd := by
    show ((session.actDataPktFwd : ℕ) : ℝ) ≤ ((session.fwdPacketCount : ℕ) : ℝ)
    rw [Nat.cast_le, h.actDataPktFwd, h.fwdPacketCount, h.packetCount]
    exact length_payloads_le ps
  minSegSizeForward := by
    show ((session.minSegSizeForward.getD 0 : ℤ) : ℝ) = 0 ↔ ((session.actDataPktFwd : ℕ) : ℝ) = 0
    rw [Int.cast_eq_zero, Nat.cast_eq_zero, h.minSegSizeForward, h.actDataPktFwd]
    exact min?_payloads_getD_eq_zero_iff ps
  flagCounts := by
    simp only [featureValues, h.flagCounts, flagCountsOf]
    intro flag hflag
    simp only [flagColumns, List.mem_cons, List.not_mem_nil, or_false] at hflag
    rcases hflag with rfl | rfl | rfl | rfl | rfl | rfl <;> rfl

/-- With or without the validation, the extractor returns the feature values of a
session whose accumulators mirror its lists. -/
theorem extract_eq (validate : Bool) {session : TrafficSession} (h : Mirrored session) :
    extract exactSqrt validate session = .ok ⟨featureValues exactSqrt session, []⟩ := by
  cases validate with
  | false => exact features_extract _ _
  | true =>
    have hvalid := validate_eq_nil (lookup_incrementalValues exactSqrt_zero h)
    rw [← features_extract]
    simp only [extract, hvalid]
    rfl

/-- Feature vectors are coherent and know one direction only.  Whatever calls the
builder has answered, every session it holds or has handed out was built from
packets of one 5-tuple, and the extractor returns for it the vector of a session
that saw forward packets alone. -/
theorem feature_vectors_coherent (cs : List SessionBuilder.Call) (validate : Bool) :
    ∀ session ∈ SessionBuilder.sessionsOf cs, ∃ ps vector,
      ps.Sublist (SessionBuilder.packetsOf cs) ∧ recorded ps = some session ∧
        extract exactSqrt validate session = .ok ⟨vector, []⟩ ∧ Coherent ps session vector := by
  intro session hsession
  obtain ⟨k, ps, hsub, hrecorded, hkey⟩ :=
    SessionBuilder.builtFrom_of_mem_sessionsOf cs session hsession
  exact ⟨ps, featureValues exactSqrt session, hsub, hrecorded,
    extract_eq validate (mirrored_of_recorded hrecorded),
    coherent_of_directed (directed_of_recorded hrecorded hkey)⟩

theorem feature_vector_of_syn :
    ∃ session ∈ SessionBuilder.sessionsOf [.processPacket synSegment], ∃ ps vector,
      ps.Sublist (SessionBuilder.packetsOf [.processPacket synSegment]) ∧
        recorded ps = some session ∧ extract exactSqrt true session = .ok ⟨vector, []⟩ ∧
        Coherent ps session vector := by
  have hsession := SessionBuilder.mem_sessionsOf_processPacket synSegment
  exact ⟨_, hsession, feature_vectors_coherent _ true _ hsession⟩

end SmartIDS.FeatureEngine
