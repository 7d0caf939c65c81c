import SmartIDS.Foundation.TrimmedLog
import SmartIDS.PacketCapture.Contracts
import SmartIDS.PacketCapture.EngineTelemetry
import SmartIDS.Python.BoundedQueue
set_option autoImplicit false

/-!
# PacketCapture: the telemetry collector

`packet_capture/telemetry/engine_telemetry.py`, all of it.  Four things are
counted, each as a total and as the times of the last 30 s.  The threads that
record read the clock before they take the lock, and so does the one that takes a
snapshot, so the readings need not come in order.
-/

namespace SmartIDS.PacketCapture

open SmartIDS.Foundation SmartIDS.Python SmartIDS.TrafficEngine

/-- `EngineTelemetryCollector`. -/
structure Telemetry where
  packets : EngineTelemetryCollector := {}
  maxExchangeCount : ℕ := 20
  mlPredictionsTotal : ℕ := 0
  lastMlPredictionLatencyMs : ℚ := 0
  secondaryModelPredictionsTotal : ℕ := 0
  mlPredictionTimes : List Time := []
  secondaryModelPredictionTimes : List Time := []

/-- `_session_exchange`. -/
structure SessionExchange where
  sourceIp : String
  destinationIp : String
  sourcePort : Option ℕ
  destinationPort : Option ℕ
  protocol : ℕ
  packetCount : ℕ
  byteCount : ℤ
  duration : ℚ
  deriving DecidableEq

def sessionExchange (session : TrafficSession) : SessionExchange where
  sourceIp := session.srcIp
  destinationIp := session.dstIp
  sourcePort := session.srcPort
  destinationPort := session.dstPort
  protocol := session.protocol
  packetCount := session.packetCount
  byteCount := session.totalBytes
  duration := round4 session.duration

/-- The dictionary of `snapshot`, without the two constants about applications. -/
structure EngineSnapshot where
  ts : Time
  packets : TelemetrySnapshot
  packetsLostTotal : ℕ
  packetQueueSize : ℕ
  packetQueueMaxsize : ℕ
  packetQueueUsagePercent : ℚ
  activeSessions : ℕ
  mlPredictionsTotal : ℕ
  mlPredictionsPer30s : ℕ
  mlProcessingRatePer30s : ℕ
  lastMlPredictionLatencyMs : ℚ
  secondaryModelPredictionsTotal : ℕ
  secondaryModelPredictionsPer30s : ℕ
  activeNetworkExchanges : List SessionExchange

namespace Telemetry

/-- `record_packet_received`. -/
def recordPacketReceived (now : Time) (t : Telemetry) : Telemetry :=
  { t with packets := t.packets.recordPacketReceived now }

/-- `record_packet_processed`. -/
def recordPacketProcessed (t : Telemetry) : Telemetry :=
  { t with packets := t.packets.recordPacketProcessed }

/-- `record_packet_dropped`. -/
def recordPacketDropped (now : Time) (t : Telemetry) : Telemetry :=
  { t with packets := t.packets.recordPacketDropped now }

/-- `record_ml_prediction`. -/
def recordMlPrediction (now : Time) (durationSeconds : ℚ) (t : Telemetry) : Telemetry :=
  { t with
    mlPredictionsTotal := t.mlPredictionsTotal + 1
    mlPredictionTimes := t.packets.trim (t.mlPredictionTimes ++ [now]) now
    lastMlPredictionLatencyMs := round4 (max 0 durationSeconds * 1000) }

/-- `record_secondary_model_prediction`. -/
def recordSecondaryModelPrediction (now : Time) (t : Telemetry) : Telemetry :=
  { t with
    secondaryModelPredictionsTotal := t.secondaryModelPredictionsTotal + 1
    secondaryModelPredictionTimes :=
      t.packets.trim (t.secondaryModelPredictionTimes ++ [now]) now }

/-- How full a queue is, in percent. -/
def usagePercent (size maxsize : ℕ) : ℚ :=
  if 0 < maxsize then round4 ((size : ℚ) / maxsize * 100) else 0

/-- `snapshot`, with what `snapshot_sessions` returns. -/
def snapshot {α : Type} (now : Time) (packetQueue : BoundedQueue α)
    (sessions : List TrafficSession) (t : Telemetry) : EngineSnapshot × Telemetry :=
  let (packets, collector) := t.packets.snapshot now
  let t := { t with
    packets := collector
    mlPredictionTimes := t.packets.trim t.mlPredictionTimes now
    secondaryModelPredictionTimes := t.packets.trim t.secondaryModelPredictionTimes now }
  ({ ts := now
     packets := packets
     packetsLostTotal := packets.packetsDroppedTotal
     packetQueueSize := packetQueue.qsize
     packetQueueMaxsize := packetQueue.maxsize
     packetQueueUsagePercent := usagePercent packetQueue.qsize packetQueue.maxsize
     activeSessions := sessions.length
     mlPredictionsTotal := t.mlPredictionsTotal
     mlPredictionsPer30s := t.mlPredictionTimes.length
     mlProcessingRatePer30s := t.mlPredictionTimes.length
     lastMlPredictionLatencyMs := t.lastMlPredictionLatencyMs
     secondaryModelPredictionsTotal := t.secondaryModelPredictionsTotal
     secondaryModelPredictionsPer30s := t.secondaryModelPredictionTimes.length
     activeNetworkExchanges := (sessions.take t.maxExchangeCount).map sessionExchange }, t)

end Telemetry

/-! ## What is counted -/

/-- The things counted over the last 30 s. -/
inductive Metric where
  | packetsReceived
  | packetsDropped
  | mlPredictions
  | secondaryModelPredictions
  deriving DecidableEq

namespace Telemetry

def total (t : Telemetry) : Metric → ℕ
  | .packetsReceived => t.packets.packetsReceivedTotal
  | .packetsDropped => t.packets.packetsDroppedTotal
  | .mlPredictions => t.mlPredictionsTotal
  | .secondaryModelPredictions => t.secondaryModelPredictionsTotal

def times (t : Telemetry) : Metric → List Time
  | .packetsReceived => t.packets.packetReceivedTimes
  | .packetsDropped => t.packets.packetDroppedTimes
  | .mlPredictions => t.mlPredictionTimes
  | .secondaryModelPredictions => t.secondaryModelPredictionTimes

end Telemetry

namespace EngineSnapshot

def total (s : EngineSnapshot) : Metric → ℕ
  | .packetsReceived => s.packets.packetsReceivedTotal
  | .packetsDropped => s.packets.packetsDroppedTotal
  | .mlPredictions => s.mlPredictionsTotal
  | .secondaryModelPredictions => s.secondaryModelPredictionsTotal

/-- What a snapshot says when the times of `n` records are kept: how many they are, or,
of dropped packets, whether there are any. -/
def Shows (s : EngineSnapshot) (n : ℕ) : Metric → Prop
  | .packetsReceived => s.packets.packetsReceivedPer30s = n
  | .packetsDropped => s.packets.packetLossDetected = decide (0 < n)
  | .mlPredictions => s.mlPredictionsPer30s = n
  | .secondaryModelPredictions => s.secondaryModelPredictionsPer30s = n

end EngineSnapshot

/-! ## Runs -/

/-- A call of the collector, with the clock it read. -/
inductive TelemetryCall where
  | packetReceived (now : Time)
  | packetProcessed
  | packetDropped (now : Time)
  | mlPrediction (now : Time) (durationSeconds : ℚ)
  | secondaryModelPrediction (now : Time)
  | snapshot (now : Time) (packetQueue : BoundedQueue PacketData) (sessions : List TrafficSession)

/-- The collector under its calls. -/
def telemetryCalls : Machine Telemetry TelemetryCall (Option EngineSnapshot) where
  step t call :=
    match call with
    | .packetReceived now => (t.recordPacketReceived now, none)
    | .packetProcessed => (t.recordPacketProcessed, none)
    | .packetDropped now => (t.recordPacketDropped now, none)
    | .mlPrediction now durationSeconds => (t.recordMlPrediction now durationSeconds, none)
    | .secondaryModelPrediction now => (t.recordSecondaryModelPrediction now, none)
    | .snapshot now packetQueue sessions =>
      ((t.snapshot now packetQueue sessions).2, some (t.snapshot now packetQueue sessions).1)

namespace TelemetryCall

/-- The clock it read, and what it recorded then; `none` for a snapshot. -/
def reading : TelemetryCall → Option (Time × Option Metric)
  | .packetReceived now => some (now, some .packetsReceived)
  | .packetProcessed => none
  | .packetDropped now => some (now, some .packetsDropped)
  | .mlPrediction now _ => some (now, some .mlPredictions)
  | .secondaryModelPrediction now => some (now, some .secondaryModelPredictions)
  | .snapshot now _ _ => some (now, none)

/-- What the call does to the times of a metric. -/
def entries (m : Metric) (call : TelemetryCall) : List (LogEntry Time) :=
  match call.reading with
  | none => []
  | some (now, none) => [.cutoff (now - 30)]
  | some (now, some m') => if m' = m then [.stamp now, .cutoff (now - 30)] else []

end TelemetryCall

/-- The times of a metric that were written and the cutoffs they met, along a run. -/
def timeline (m : Metric) (calls : List TelemetryCall) : List (LogEntry Time) :=
  calls.flatMap (TelemetryCall.entries m)

/-- What holds between any two calls. -/
structure Collects (calls : List TelemetryCall) (t : Telemetry) : Prop where
  window : t.packets.packetWindowSeconds = 30
  times : ∀ m, t.times m = TrimmedLog.queue (timeline m calls)
  total : ∀ m, t.total m = (TrimmedLog.stamps (timeline m calls)).length

theorem timeline_concat (m : Metric) (calls : List TelemetryCall) (call : TelemetryCall) :
    timeline m (calls ++ [call]) = timeline m calls ++ call.entries m := by
  simp [timeline]

/-- The step lemma: a call writes what it records, and trims what it reads. -/
theorem times_step {t : Telemetry} (h : t.packets.packetWindowSeconds = 30)
    (call : TelemetryCall) (m : Metric) :
    (telemetryCalls.step t call).1.times m =
      TrimmedLog.log.exec (t.times m) (call.entries m) := by
  have htrim : ∀ q now, t.packets.trim q now =
      TrimmedLog.log.exec q [.cutoff (now - 30)] := by
    intro q now
    unfold EngineTelemetryCollector.trim
    rw [h]
    rfl
  cases call with
  | packetProcessed => cases m <;> rfl
  | packetReceived now => cases m <;> first | rfl | exact htrim _ now
  | packetDropped now => cases m <;> first | rfl | exact htrim _ now
  | mlPrediction now durationSeconds => cases m <;> first | rfl | exact htrim _ now
  | secondaryModelPrediction now => cases m <;> first | rfl | exact htrim _ now
  | snapshot now packetQueue sessions => cases m <;> exact htrim _ now

theorem total_step (t : Telemetry) (call : TelemetryCall) (m : Metric) :
    (telemetryCalls.step t call).1.total m =
      t.total m + (TrimmedLog.stamps (call.entries m)).length := by
  cases call <;> cases m <;> rfl

theorem window_step (t : Telemetry) (call : TelemetryCall) :
    (telemetryCalls.step t call).1.packets.packetWindowSeconds = t.packets.packetWindowSeconds := by
  cases call <;> rfl

theorem Collects.step {calls : List TelemetryCall} {t : Telemetry} (h : Collects calls t)
    (call : TelemetryCall) : Collects (calls ++ [call]) (telemetryCalls.step t call).1 where
  window := (window_step t call).trans h.window
  times m := by
    rw [times_step h.window, h.times, timeline_concat]
    exact (Machine.exec_append _ _ _ _).symm
  total m := by
    rw [total_step, h.total, timeline_concat, TrimmedLog.stamps_append, List.length_append]

theorem collects_exec (calls : List TelemetryCall) :
    Collects calls (telemetryCalls.exec {} calls) :=
  telemetryCalls.exec_history
    ⟨rfl, fun m => by cases m <;> rfl, fun m => by cases m <;> rfl⟩
    (fun _ call _ h => h.step call) calls

/-! ## What a snapshot says -/

theorem shows_snapshot (t : Telemetry) (now : Time) (packetQueue : BoundedQueue PacketData)
    (sessions : List TrafficSession) (m : Metric) :
    (t.snapshot now packetQueue sessions).1.Shows
      ((t.snapshot now packetQueue sessions).2.times m).length m := by
  cases m <;> rfl

theorem total_snapshot (t : Telemetry) (now : Time) (packetQueue : BoundedQueue PacketData)
    (sessions : List TrafficSession) (m : Metric) :
    (t.snapshot now packetQueue sessions).1.total m = t.total m := by
  cases m <;> rfl

/-- The clock readings of a run. -/
def readings (calls : List TelemetryCall) : List Time :=
  calls.filterMap fun call => call.reading.map Prod.fst

/-- Every cutoff is 30 s before a reading. -/
theorem exists_reading_of_cutoff {m : Metric} {calls : List TelemetryCall} {c : Time}
    (h : .cutoff c ∈ timeline m calls) : ∃ now ∈ readings calls, c = now - 30 := by
  obtain ⟨call, hcall, hc⟩ := List.mem_flatMap.mp h
  unfold TelemetryCall.entries at hc
  cases hreading : call.reading with
  | none => simp [hreading] at hc
  | some reading =>
    obtain ⟨now, recorded⟩ := reading
    refine ⟨now, List.mem_filterMap.mpr ⟨call, hcall, by simp [hreading]⟩, ?_⟩
    rw [hreading] at hc
    cases recorded with
    | none => simpa using hc
    | some m' =>
      dsimp only at hc
      split_ifs at hc
      · simpa using hc
      · simp at hc

/-- What a snapshot says after any calls.  The totals count every record.  The number
for the last 30 s is never below that of the records younger than every cutoff since,
and is that number while the records of the metric come in order; where moreover no
reading of the clock was later than the snapshot's, it is that of the records of the
30 s before it. -/
theorem snapshot_windows (calls : List TelemetryCall) (now : Time)
    (packetQueue : BoundedQueue PacketData) (sessions : List TrafficSession) (m : Metric) :
    let s := ((telemetryCalls.exec {} calls).snapshot now packetQueue sessions).1
    let met := timeline m calls ++ [.cutoff (now - 30)]
    let recorded := TrimmedLog.stamps (timeline m calls)
    s.total m = recorded.length ∧
      ∃ n, s.Shows n m ∧ (TrimmedLog.survivors met).length ≤ n ∧ n ≤ recorded.length ∧
        (recorded.Pairwise (· ≤ ·) → n = (TrimmedLog.survivors met).length ∧
          ((∀ reading ∈ readings calls, reading ≤ now) →
            n = (recorded.filter fun t => now - 30 < t).length)) := by
  have h := collects_exec calls
  have hafter := times_step h.window (.snapshot now packetQueue sessions) m
  have htimes : ((telemetryCalls.exec {} calls).snapshot now packetQueue sessions).2.times m =
      TrimmedLog.queue (timeline m calls ++ [.cutoff (now - 30)]) := by
    rw [h.times] at hafter
    rw [TrimmedLog.queue, Machine.exec_append]
    exact hafter
  have hstamps : TrimmedLog.stamps (timeline m calls ++ [.cutoff (now - 30)]) =
      TrimmedLog.stamps (timeline m calls) := by
    rw [TrimmedLog.stamps_append]
    exact List.append_nil _
  have hsuffix := TrimmedLog.queue_suffix (timeline m calls ++ [.cutoff (now - 30)])
  rw [hstamps] at hsuffix
  refine ⟨(total_snapshot _ _ _ _ m).trans (h.total m), _, shows_snapshot _ _ _ _ m, ?_, ?_, ?_⟩
  · rw [htimes]
    exact (TrimmedLog.survivors_sublist _).length_le
  · rw [htimes]
    exact hsuffix.length_le
  · intro hordered
    have hqueue : TrimmedLog.queue (timeline m calls ++ [.cutoff (now - 30)]) =
        TrimmedLog.survivors (timeline m calls ++ [.cutoff (now - 30)]) :=
      TrimmedLog.queue_eq_survivors (hstamps.symm ▸ hordered)
    refine ⟨by rw [htimes, hqueue], fun hlatest => ?_⟩
    rw [htimes, hqueue, TrimmedLog.survivors_eq_filter]
    intro c hc
    obtain ⟨reading, hreading, rfl⟩ := exists_reading_of_cutoff hc
    exact sub_le_sub_right (hlatest reading hreading) 30

end SmartIDS.PacketCapture
