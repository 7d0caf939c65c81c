import SmartIDS.PacketCapture.Contracts
import SmartIDS.ResponseEngine.AutoBlocker
import SmartIDS.ResponseEngine.Policy
import SmartIDS.ResponseEngine.ProcessedCommandStore
import SmartIDS.TrafficEngine.SessionBuilder
set_option autoImplicit false

/-!
# PacketCapture: the packet processor

`processor/packet_processor.py`.  The one object of the engine that packets and
backend commands act on.  It owns the detector, the session builder, the
blocker, the policy and the command store, and hands alerts, session updates and
block events to publishers; a publisher's exceptions are caught, so the model
keeps what is published as three growing lists.

The models' answers and everything a call meets outside the engine come with the
packet, as an `Arrival`.
-/

namespace SmartIDS.PacketCapture

open SmartIDS.Foundation SmartIDS.Python SmartIDS.ResponseEngine SmartIDS.ThreatDetection
  SmartIDS.TrafficEngine

structure PacketProcessor (Φ : Type) (repr : Json → String) where
  heuristicDetector : HeuristicDetector
  sessionBuilder : SessionBuilder
  autoBlocker : AutoBlocker Φ
  responsePolicy : ResponsePolicy
  sessionAlertState : Dict String Signature
  processedCommandStore : ProcessedCommandStore repr
  alerts : List Alert
  sessionUpdates : List SessionUpdate
  blockEvents : List BlockEvent

/-- What does not change while the engine runs: the firewall adapter of the
platform, if there is one, and the settings of the detector. -/
structure Platform (Φ Ω : Type) where
  firewall : Option (FirewallAdapter Φ Ω)
  heuristic : HeuristicConfig

/-- A packet, with what the calls made for it meet: the hosts `temp_block` and
`expire_blocks` run on, and the answers of the two models. -/
structure Arrival (Ω : Type) where
  packet : PacketData
  expiryHost : Host Ω
  heuristicHost : Host Ω
  bruteforceHost : Host Ω
  liveHost : Host Ω
  expiredHost : SessionKey → Host Ω
  flowEndHost : Host Ω
  /-- the live model on the session of the packet -/
  livePrediction : Option Prediction
  /-- the completed-flow model on the sessions that expire -/
  expiredPrediction : SessionKey → Option Prediction
  /-- the completed-flow model on the session the packet ends -/
  flowEndPrediction : Option Prediction

/-- A platform without a firewall adapter, under the default settings. -/
def Platform.bare : Platform Unit Unit := ⟨none, .init none none⟩

/-- A packet met on one host throughout, on which no model answers. -/
def Arrival.plain {Ω : Type} (host : Host Ω) (packet : PacketData) : Arrival Ω where
  packet := packet
  expiryHost := host
  heuristicHost := host
  bruteforceHost := host
  liveHost := host
  expiredHost := fun _ => host
  flowEndHost := host
  livePrediction := none
  expiredPrediction := fun _ => none
  flowEndPrediction := none

namespace PacketProcessor

variable {Φ Ω : Type} {repr : Json → String}

/-- `__init__`, given the store its constructor loaded. -/
def init (firewall : Φ) (policy : ResponsePolicy) (store : ProcessedCommandStore repr) :
    PacketProcessor Φ repr where
  heuristicDetector := {}
  sessionBuilder := .init
  autoBlocker := .init firewall
  responsePolicy := policy
  sessionAlertState := .empty
  processedCommandStore := store
  alerts := []
  sessionUpdates := []
  blockEvents := []

/-- A computation of the processor that may raise. -/
abbrev Action (Φ : Type) (repr : Json → String) (α : Type) : Type :=
  Effect PyError (PacketProcessor Φ repr) α

/-- Call a method of the blocker. -/
def onBlocker {α : Type} (x : Effect PyError (AutoBlocker Φ) α) : Action Φ repr α :=
  Effect.zoom autoBlocker (fun b p => { p with autoBlocker := b }) x

/-! ## Publishing -/

/-- `_publish_alert`. -/
def publishAlert (alert : Alert) (p : PacketProcessor Φ repr) : PacketProcessor Φ repr :=
  { p with alerts := p.alerts ++ [alert] }

/-- `_publish_session_update`. -/
def publishSessionUpdate (update : SessionUpdate) (p : PacketProcessor Φ repr) :
    PacketProcessor Φ repr :=
  { p with sessionUpdates := p.sessionUpdates ++ [update] }

/-- `_publish_block_event`. -/
def publishBlockEvent (event : BlockEvent) (p : PacketProcessor Φ repr) :
    PacketProcessor Φ repr :=
  { p with blockEvents := p.blockEvents ++ [event] }

/-- `auto_blocker.record_detection_activity`. -/
def recordActivity (ip attackType action : String) (timestamp : Time)
    (p : PacketProcessor Φ repr) : PacketProcessor Φ repr :=
  { p with autoBlocker := p.autoBlocker.recordDetectionActivity ip attackType action timestamp }

/-- `_emit_session_alert`.  The state of a session is dropped after its final
alert, and only there. -/
def emitSessionAlert (key : SessionKey) (alert : Alert) (isFinal : Bool)
    (p : PacketProcessor Φ repr) : PacketProcessor Φ repr :=
  let id := sessionKeyStr key
  let previous := p.sessionAlertState.get? id
  if previous = some alert.signature ∧ ¬ isFinal then p
  else
    let updateType : UpdateType :=
      if isFinal then .final else if previous.isSome then .updated else .new
    let alert := { alert with sessionId := some id, updateType := some updateType }
    let state := p.sessionAlertState.set id alert.signature
    publishAlert alert
      { p with sessionAlertState := if isFinal then state.erase id else state }

/-! ## The response to one packet -/

/-- The middle of an event id: `int(timestamp * 1000)`. -/
def millis (timestamp : Time) : ℤ := truncate (timestamp * 1000)

/-- `_should_alert`. -/
def shouldAlert (prediction : Prediction) : Bool :=
  if prediction.label = "Normal Traffic" then false else 4 / 5 ≤ prediction.confidence

/-- The first lines of `process`: expired blocks are lifted, and traffic from a
blocked or watchlisted source is noted. -/
def noteSource (fw : Option (FirewallAdapter Φ Ω)) (h : Host Ω) (packet : PacketData)
    (p : PacketProcessor Φ repr) : PacketProcessor Φ repr :=
  let p := { p with autoBlocker := p.autoBlocker.expireBlocks fw h }
  let p :=
    if p.autoBlocker.isCurrentlyBlocked fw h packet.srcIp then
      recordActivity packet.srcIp "blocked_ip_activity" "blocked" packet.timestamp p
    else p
  if p.autoBlocker.isWatchlisted packet.srcIp then
    recordActivity packet.srcIp "watchlisted_ip_activity" "watchlisted" packet.timestamp p
  else p

/-- The alert about a packet. -/
def packetAlert (packet : PacketData) (type attackType : String) (confidence : ℚ)
    (answer : Bool × String) (duration : ℤ) : Alert where
  type := type
  attackType := attackType
  confidence := confidence
  blocked := answer.1
  blockStatus := answer.2
  blockDurationSeconds := duration
  srcIp := packet.srcIp
  dstIp := packet.dstIp
  srcPort := packet.srcPort
  dstPort := packet.dstPort
  protocol := packet.protocol
  timestamp := packet.timestamp
  isFinal := false
  sessionId := none
  updateType := none

/-- The block event about a packet. -/
def packetBlockEvent (packet : PacketData) (kind reason : String) : BlockEvent where
  eventId := s!"{kind}-{packet.srcIp}-{millis packet.timestamp}"
  timestamp := packet.timestamp
  sourceIp := packet.srcIp
  actionTaken := "blocked"
  reason := reason
  detectionMethod := "heuristic"
  sessionId := some (sessionKeyStr (.fromPacket packet))
  sourcePort := packet.srcPort
  destinationIp := some packet.dstIp
  destinationPort := packet.dstPort
  protocol := some packet.protocol

/-- The branch of `process` for a suspicious packet. -/
def respondToHeuristic (fw : Option (FirewallAdapter Φ Ω)) (h : Host Ω) (packet : PacketData)
    (decision : HeuristicDecision) : Action Φ repr Unit := do
  Effect.modify (recordActivity packet.srcIp decision.reason "allowed" packet.timestamp)
  if ResponsePolicy.classifyHeuristicAction decision.score = .highTempBlock then
    let answer ← onBlocker (AutoBlocker.tempBlock fw h packet.srcIp
      ResponsePolicy.highHeuristicBlockSeconds)
    Effect.modify (publishAlert (packetAlert packet "heuristic_high_confidence"
      "Heuristic Suspicious Activity" (min (99 / 100) ((decision.score : ℚ) / 10)) answer
      ResponsePolicy.highHeuristicBlockSeconds))
    if answer.1 then
      Effect.modify (publishBlockEvent
        (packetBlockEvent packet "heuristic" "heuristic_high_confidence"))

/-- The branch of `process` for a suspected brute force attack. -/
def respondToBruteforce (fw : Option (FirewallAdapter Φ Ω)) (h : Host Ω) (packet : PacketData) :
    Action Φ repr Unit := do
  let answer ← onBlocker (AutoBlocker.tempBlock fw h packet.srcIp
    ResponsePolicy.bruteforceBlockSeconds)
  Effect.modify (publishAlert (packetAlert packet "heuristic_bruteforce_detected" "Brute Force"
    (9 / 10) answer ResponsePolicy.bruteforceBlockSeconds))
  if answer.1 then
    Effect.modify (publishBlockEvent (packetBlockEvent packet "bruteforce" "bruteforce_detected"))
  Effect.modify (recordActivity packet.srcIp "Brute Force"
    (if answer.1 then "blocked" else "allowed") packet.timestamp)

/-! ## The response to a prediction -/

/-- The alert about a session. -/
def sessionAlert (session : TrafficSession) (prediction : Prediction) (answer : Bool × String)
    (isFinal : Bool) : Alert where
  type := if isFinal then "ml_completed_flow_update" else "ml_attack_detected"
  attackType := prediction.label
  confidence := prediction.confidence
  blocked := answer.1
  blockStatus := answer.2
  blockDurationSeconds := ResponsePolicy.mlConfirmedBlockSeconds
  srcIp := session.srcIp
  dstIp := session.dstIp
  srcPort := session.srcPort
  dstPort := session.dstPort
  protocol := session.protocol
  timestamp := session.lastSeen
  isFinal := isFinal
  sessionId := none
  updateType := none

/-- The block event about a session. -/
def sessionBlockEvent (key : SessionKey) (session : TrafficSession) (label : String)
    (isFinal : Bool) : BlockEvent :=
  let kind := if isFinal then "ml-final" else "ml-live"
  { eventId := s!"{kind}-{session.srcIp}-{millis session.lastSeen}"
    timestamp := session.lastSeen
    sourceIp := session.srcIp
    actionTaken := "blocked"
    reason := label
    detectionMethod := "ml"
    sessionId := some (sessionKeyStr key)
    sourcePort := session.srcPort
    destinationIp := some session.dstIp
    destinationPort := session.dstPort
    protocol := some session.protocol }

/-- What `process` does on an alerting live prediction and
`_process_finalized_session` on an alerting final one. -/
def raiseSessionAlert (fw : Option (FirewallAdapter Φ Ω)) (h : Host Ω) (key : SessionKey)
    (session : TrafficSession) (prediction : Prediction) (isFinal : Bool) :
    Action Φ repr Unit := do
  let answer ← onBlocker (AutoBlocker.tempBlock fw h session.srcIp
    ResponsePolicy.mlConfirmedBlockSeconds)
  Effect.modify (emitSessionAlert key (sessionAlert session prediction answer isFinal) isFinal)
  if answer.1 then
    Effect.modify (publishBlockEvent (sessionBlockEvent key session prediction.label isFinal))
  Effect.modify (recordActivity session.srcIp prediction.label
    (if answer.1 then "blocked" else "allowed") session.lastSeen)

/-- An alert is raised on a prediction that calls for one. -/
def respondToPrediction (fw : Option (FirewallAdapter Φ Ω)) (h : Host Ω) (key : SessionKey)
    (session : TrafficSession) (isFinal : Bool) : Option Prediction → Action Φ repr Unit
  | none => return ()
  | some prediction =>
    if shouldAlert prediction then raiseSessionAlert fw h key session prediction isFinal
    else return ()

/-- `_process_finalized_session`. -/
def processFinalizedSession (fw : Option (FirewallAdapter Φ Ω)) (h : Host Ω)
    (prediction : Option Prediction) (decision : HeuristicDecision) (finalized : Finalized) :
    Action Φ repr Unit := do
  Effect.modify (publishSessionUpdate (buildSessionUpsertPayload finalized.sessionKey
    finalized.session finalized.reason.text prediction decision))
  respondToPrediction fw h finalized.sessionKey finalized.session true prediction

/-- The branch of `process` for a session whose prediction is due. -/
def predictLive (fw : Option (FirewallAdapter Φ Ω)) (h : Host Ω) (key : SessionKey)
    (session : TrafficSession) (prediction : Option Prediction) (decision : HeuristicDecision) :
    Action Φ repr Unit := do
  Effect.modify (publishSessionUpdate
    (buildSessionUpsertPayload key session "active" prediction decision))
  respondToPrediction fw h key session false prediction

/-! ## One packet -/

/-- Call a method of the session builder. -/
def onBuilder {α : Type} (f : SessionBuilder → α × SessionBuilder) : Action Φ repr α :=
  Effect.state fun p =>
    ((f p.sessionBuilder).1, { p with sessionBuilder := (f p.sessionBuilder).2 })

/-- `heuristic_detector.evaluate_packet`. -/
def evaluatePacket (cfg : HeuristicConfig) (packet : PacketData) :
    Action Φ repr HeuristicDecision :=
  Effect.state fun p =>
    ((p.heuristicDetector.evaluatePacket cfg packet).2,
      { p with heuristicDetector := (p.heuristicDetector.evaluatePacket cfg packet).1 })

/-- `response_policy.record_bruteforce_attempt`. -/
def recordBruteforceAttempt (packet : PacketData) : Action Φ repr Bool :=
  Effect.state fun p =>
    ((p.responsePolicy.recordBruteforceAttempt packet).1,
      { p with responsePolicy := (p.responsePolicy.recordBruteforceAttempt packet).2 })

/-- The two branches of `process` for a packet that is suspicious by itself. -/
def respondToPacket (env : Platform Φ Ω) (a : Arrival Ω) (decision : HeuristicDecision)
    (bruteForceSuspected : Bool) : Action Φ repr Unit := do
  if decision.suspicious then
    respondToHeuristic env.firewall a.heuristicHost a.packet decision
  if bruteForceSuspected then
    respondToBruteforce env.firewall a.bruteforceHost a.packet

/-- The first half of `process`: what the packet is by itself. -/
def assessPacket (env : Platform Φ Ω) (a : Arrival Ω) : Action Φ repr HeuristicDecision := do
  Effect.modify (noteSource env.firewall a.expiryHost a.packet)
  let decision ← evaluatePacket env.heuristic a.packet
  let bruteForceSuspected ← recordBruteforceAttempt a.packet
  respondToPacket env a decision bruteForceSuspected
  return decision

/-- The middle of `process`: the live prediction, when it is due. -/
def predictIfDue (env : Platform Φ Ω) (a : Arrival Ω) (session : TrafficSession)
    (decision : HeuristicDecision) : Action Φ repr Unit := do
  if ← onBuilder (SessionBuilder.shouldPredict a.packet) then
    predictLive env.firewall a.liveHost (.fromPacket a.packet) session a.livePrediction decision

/-- The last lines of `process`: the session the packet ends. -/
def finishSession (env : Platform Φ Ω) (a : Arrival Ω) (decision : HeuristicDecision) :
    Action Φ repr Unit := do
  match ← onBuilder (SessionBuilder.finalizeSessionIfNeeded a.packet) with
  | none => return ()
  | some finalized =>
    processFinalizedSession env.firewall a.flowEndHost a.flowEndPrediction decision finalized

/-- The second half of `process`: the sessions the packet moves on. -/
def advanceSessions (env : Platform Φ Ω) (a : Arrival Ω) (decision : HeuristicDecision) :
    Action Φ repr Unit := do
  let session ← onBuilder (SessionBuilder.processPacket a.packet)
  let expired ← onBuilder SessionBuilder.drainFinalizedSessions
  expired.forM fun finalized =>
    processFinalizedSession env.firewall (a.expiredHost finalized.sessionKey)
      (a.expiredPrediction finalized.sessionKey) decision finalized
  predictIfDue env a session decision
  finishSession env a decision

/-- `process`. -/
def process (env : Platform Φ Ω) (a : Arrival Ω) : Action Φ repr Unit := do
  let decision ← assessPacket env a
  advanceSessions env a decision

end PacketProcessor

end SmartIDS.PacketCapture
