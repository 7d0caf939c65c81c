import SmartIDS.Foundation.Dict
import SmartIDS.Foundation.Machine
import SmartIDS.TrafficEngine.TrafficSession
set_option autoImplicit false

/-!
# TrafficEngine: the session builder

`session_builder/session_builder.py`.  The builder files every packet into the
session of its 5-tuple, expires sessions that have been idle or open for too
long, and finishes a session at its FIN or RST packet.  `perPacket` is the
protocol in which the packet processor drives it.
-/

namespace SmartIDS.TrafficEngine

open SmartIDS.Foundation SmartIDS.PacketCapture

/-- `last_prediction_packet_count` and `last_prediction_time`. -/
structure PredictionState where
  lastPredictionPacketCount : ℕ
  lastPredictionTime : Time
  deriving DecidableEq

/-- Why a session was handed out for its final prediction. -/
inductive Reason where
  | idleTimeout
  | maxDuration
  | flowEnd
  deriving DecidableEq, Repr

/-- The string the source uses. -/
def Reason.text : Reason → String
  | .idleTimeout => "idle_timeout"
  | .maxDuration => "max_duration"
  | .flowEnd => "flow_end"

/-- A session handed out for its final prediction. -/
structure Finalized where
  session : TrafficSession
  sessionKey : SessionKey
  reason : Reason
  deriving DecidableEq

structure SessionBuilder where
  sessions : Dict SessionKey TrafficSession
  predictionState : Dict SessionKey PredictionState
  pendingFinalizations : List Finalized

namespace SessionBuilder

def idleTimeoutSeconds : Time := 30
def maxSessionDurationSeconds : Time := 120
def minPredictionAgeSeconds : Time := 1
def minPredictionPacketCount : ℕ := 5
def predictEveryNPackets : ℤ := 5
def predictEveryMSeconds : Time := 1

def init : SessionBuilder := ⟨.empty, .empty, []⟩

/-! ## Expiry -/

/-- The test of the first loop of `_expire_stale_sessions`, on the times of the
first and the last packet of a session. -/
def staleReason (now start last : Time) : Option Reason :=
  if idleTimeoutSeconds ≤ now - last then some .idleTimeout
  else if maxSessionDurationSeconds ≤ now - start then some .maxDuration
  else none

theorem staleReason_ne_flowEnd {now start last : Time} {reason : Reason}
    (h : staleReason now start last = some reason) : reason ≠ .flowEnd := by
  unfold staleReason at h
  split_ifs at h <;> rw [Option.some.injEq] at h <;> rw [← h] <;> decide

/-- The session of an entry, if it is stale. -/
def staleItem (now : Time) (e : SessionKey × TrafficSession) : Option (SessionKey × Reason) :=
  (staleReason now e.2.startTime e.2.lastSeen).map fun reason => (e.1, reason)

/-- The body of the second loop. -/
def expireItem (b : SessionBuilder) (item : SessionKey × Reason) : SessionBuilder :=
  let staleSession := b.sessions.get? item.1
  let b := { b with
    sessions := b.sessions.erase item.1
    predictionState := b.predictionState.erase item.1 }
  match staleSession with
  | none => b
  | some session =>
    { b with
      pendingFinalizations := b.pendingFinalizations ++ [⟨session, item.1, item.2⟩] }

/-- `_expire_stale_sessions`. -/
def expireStaleSessions (now : Time) (b : SessionBuilder) : SessionBuilder :=
  (b.sessions.entries.filterMap (staleItem now)).foldl expireItem b

/-! ## The operations -/

/-- The first half of `process_packet` after expiry: the session of the packet,
created if there is none. -/
def openSession (p : PacketData) (b : SessionBuilder) : SessionBuilder :=
  let key := SessionKey.fromPacket p
  if key ∈ b.sessions.keys then b
  else
    { b with
      sessions := b.sessions.set key (.opened p)
      predictionState := b.predictionState.set key ⟨0, p.timestamp⟩ }

/-- `_mark_session_for_final_prediction`. -/
def markSessionForFinalPrediction (key : SessionKey) (b : SessionBuilder) : SessionBuilder :=
  match b.predictionState.get? key with
  | none => b
  | some state =>
    { b with
      predictionState :=
        b.predictionState.set key { state with lastPredictionPacketCount := 0 } }

/-- `process_packet`: the session the packet was recorded in. -/
def processPacket (p : PacketData) (b : SessionBuilder) : TrafficSession × SessionBuilder :=
  let key := SessionKey.fromPacket p
  let b := openSession p (expireStaleSessions p.timestamp b)
  let session := ((b.sessions.get? key).getD (.opened p)).update p
  let b := { b with sessions := b.sessions.set key session }
  (session, if session.finished then markSessionForFinalPrediction key b else b)

/-- `drain_finalized_sessions`. -/
def drainFinalizedSessions (b : SessionBuilder) : List Finalized × SessionBuilder :=
  (b.pendingFinalizations, { b with pendingFinalizations := [] })

/-- The condition of `should_predict`. -/
def predictionDue (session : TrafficSession) (state : PredictionState) : Bool :=
  let ageTrigger := minPredictionAgeSeconds ≤ session.age
  let packetTrigger := minPredictionPacketCount ≤ session.packetCount
  let packetsSinceLast : ℤ := session.packetCount - state.lastPredictionPacketCount
  let periodicPacketTrigger := predictEveryNPackets ≤ packetsSinceLast
  let timeSinceLast := session.lastSeen - state.lastPredictionTime
  let periodicTimeTrigger := predictEveryMSeconds ≤ timeSinceLast
  let endTrigger := session.finished
  let minimumReady := ageTrigger && packetTrigger
  let firstReadyPrediction := minimumReady && state.lastPredictionPacketCount == 0
  let periodicPrediction := minimumReady && (periodicPacketTrigger || periodicTimeTrigger)
  firstReadyPrediction || periodicPrediction || endTrigger

/-- `should_predict`. -/
def shouldPredict (p : PacketData) (b : SessionBuilder) : Bool × SessionBuilder :=
  let key := SessionKey.fromPacket p
  match b.sessions.get? key, b.predictionState.get? key with
  | some session, some state =>
    if predictionDue session state then
      (true, { b with
        predictionState :=
          b.predictionState.set key ⟨session.packetCount, session.lastSeen⟩ })
    else (false, b)
  | _, _ => (false, b)

/-- `finalize_session_if_needed`. -/
def finalizeSessionIfNeeded (p : PacketData) (b : SessionBuilder) :
    Option Finalized × SessionBuilder :=
  let key := SessionKey.fromPacket p
  match b.sessions.get? key with
  | none => (none, b)
  | some session =>
    if session.finished then
      (some ⟨session, key, .flowEnd⟩,
        { b with
          predictionState := b.predictionState.erase key
          sessions := b.sessions.erase key })
    else (none, b)

/-! ## The per-packet protocol -/

/-- What the packet processor gets from the builder for one packet. -/
structure PacketReport where
  /-- the session the packet was recorded in -/
  session : TrafficSession
  /-- the sessions that expired -/
  expired : List Finalized
  /-- the answer of `should_predict` -/
  predict : Bool
  /-- the session the packet ended -/
  flowEnd : Option Finalized
  deriving DecidableEq

/-- The calls `PacketProcessor.process` makes for one packet, in their order. -/
def perPacket (p : PacketData) (b : SessionBuilder) : PacketReport × SessionBuilder :=
  let (session, b) := processPacket p b
  let (expired, b) := drainFinalizedSessions b
  let (predict, b) := shouldPredict p b
  let (flowEnd, b) := finalizeSessionIfNeeded p b
  (⟨session, expired, predict, flowEnd⟩, b)

/-- The report of a packet and the builder after it, call by call. -/
theorem perPacket_calls (p : PacketData) (b : SessionBuilder) :
    perPacket p b =
      (let recorded := processPacket p b
      let drained := drainFinalizedSessions recorded.2
      let asked := shouldPredict p drained.2
      let finished := finalizeSessionIfNeeded p asked.2
      (⟨recorded.1, drained.1, asked.1, finished.1⟩, finished.2)) := by
  simp only [perPacket]

/-- The sessions a report hands out, in order. -/
def PacketReport.handedOut (r : PacketReport) : List Finalized := r.expired ++ r.flowEnd.toList

/-- The builder under the per-packet protocol. -/
def machine : Machine SessionBuilder PacketData PacketReport where
  step b p := ((perPacket p b).2, (perPacket p b).1)

theorem machine_step (b : SessionBuilder) (p : PacketData) :
    machine.step b p = ((perPacket p b).2, (perPacket p b).1) := rfl

theorem exec_concat (ps : List PacketData) (p : PacketData) :
    machine.exec init (ps ++ [p]) = (perPacket p (machine.exec init ps)).2 := by
  rw [Machine.exec_concat, machine_step]

theorem trace_concat (ps : List PacketData) (p : PacketData) :
    machine.trace init (ps ++ [p]) =
      machine.trace init ps ++ [(perPacket p (machine.exec init ps)).1] := by
  rw [Machine.trace_concat, machine_step]

/-- Every session handed out along a run, in order. -/
def handedOut (ps : List PacketData) : List Finalized :=
  (machine.trace init ps).flatMap PacketReport.handedOut

theorem handedOut_concat (ps : List PacketData) (p : PacketData) :
    handedOut (ps ++ [p]) =
      handedOut ps ++ (perPacket p (machine.exec init ps)).1.handedOut := by
  simp [handedOut, trace_concat]

end SessionBuilder

end SmartIDS.TrafficEngine
