import Mathlib.Data.Rat.Floor
import SmartIDS.Foundation.Separated
import SmartIDS.PacketCapture.PacketData
import SmartIDS.ThreatDetection.Heuristic
import SmartIDS.TrafficEngine.TrafficSession
set_option autoImplicit false

/-!
# PacketCapture: what the engine publishes

The payloads handed to the publishers: alerts, session updates
(`forwarding/contracts.py`) and block events.  Time stamps stay numbers here;
the payloads carry them as ISO strings.  Confidences are the rational values of
the floats a model returns.
-/

namespace SmartIDS.PacketCapture

open SmartIDS.Foundation SmartIDS.ThreatDetection SmartIDS.TrafficEngine

/-- The two entries of a model's answer the engine acts on. -/
structure Prediction where
  label : String
  confidence : ℚ
  deriving DecidableEq

/-- `round(x, 4)`: to the nearest multiple, ties to the even one. -/
def round4 (x : ℚ) : ℚ :=
  let scaled := x * 10000
  let below := ⌊scaled⌋
  let nearest :=
    if scaled - below < 1 / 2 then below
    else if 1 / 2 < scaled - below then below + 1
    else if below % 2 = 0 then below
    else below + 1
  (nearest : ℚ) / 10000

/-- A port in an f-string; a missing one prints as `None`. -/
def portText (port : Option ℕ) : String := port.elim "None" toString

/-- `_session_key_str`, which `contracts.py` has as `_session_id`. -/
def sessionKeyStr (key : SessionKey) : String :=
  s!"{key.srcIp}:{portText key.srcPort}-{key.dstIp}:{portText key.dstPort}-{key.protocol}"

/-! ## Reading a session id back -/

theorem lacks_portText {c : Char} (hnone : Separated.Lacks c "None") (hc : c.isDigit = false)
    (port : Option ℕ) : Separated.Lacks c (portText port) := by
  cases port with
  | none => exact hnone
  | some n => exact Separated.lacks_toString hc n

theorem portText_inj {port port' : Option ℕ} (h : portText port = portText port') :
    port = port' := by
  have hletter : ∀ n : ℕ, "None" ≠ toString n := by
    intro n heq
    have hlacks : Separated.Lacks 'N' (toString n) := Separated.lacks_toString (by decide) n
    rw [← heq] at hlacks
    exact absurd hlacks (by decide)
  cases port with
  | none =>
    cases port' with
    | none => rfl
    | some n => exact absurd h (hletter n)
  | some m =>
    cases port' with
    | none => exact absurd h.symm (hletter m)
    | some n => rw [Separated.toString_nat_inj h]

/-- An endpoint can be read back: its last colon separates address and port. -/
theorem endpoint_inj {ip ip' : String} {port port' : Option ℕ}
    (h : ip ++ ":" ++ portText port = ip' ++ ":" ++ portText port') : ip = ip' ∧ port = port' := by
  obtain ⟨hip, hport⟩ := Separated.inj_of_lacks_right rfl
    (lacks_portText (by decide) (by decide) port) (lacks_portText (by decide) (by decide) port') h
  exact ⟨hip, portText_inj hport⟩

theorem sessionKeyStr_eq (key : SessionKey) :
    sessionKeyStr key =
      (key.srcIp ++ ":" ++ portText key.srcPort) ++ "-" ++
        ((key.dstIp ++ ":" ++ portText key.dstPort) ++ "-" ++ toString key.protocol) := by
  simp only [sessionKeyStr, String.append_assoc]
  rfl

/-- The id of a session names its 5-tuple, when the source address has no hyphen;
an IP address has none. -/
theorem sessionKeyStr_inj {key key' : SessionKey} (hyphen : Separated.Lacks '-' key.srcIp)
    (hyphen' : Separated.Lacks '-' key'.srcIp) (h : sessionKeyStr key = sessionKeyStr key') :
    key = key' := by
  have hsource : ∀ k : SessionKey, Separated.Lacks '-' k.srcIp →
      Separated.Lacks '-' (k.srcIp ++ ":" ++ portText k.srcPort) := fun k hk =>
    (hk.append (by decide)).append (lacks_portText (by decide) (by decide) _)
  rw [sessionKeyStr_eq, sessionKeyStr_eq] at h
  -- the first hyphen ends the source, the last one starts the protocol
  obtain ⟨hsrc, hrest⟩ := Separated.inj_of_lacks_left rfl (hsource key hyphen)
    (hsource key' hyphen') h
  obtain ⟨hdst, hprotocol⟩ := Separated.inj_of_lacks_right rfl
    (Separated.lacks_toString (by decide) _) (Separated.lacks_toString (by decide) _) hrest
  obtain ⟨hsrcIp, hsrcPort⟩ := endpoint_inj hsrc
  obtain ⟨hdstIp, hdstPort⟩ := endpoint_inj hdst
  have hprotocol := Separated.toString_nat_inj hprotocol
  cases key
  cases key'
  simp_all

/-! ## Session updates -/

/-- The payload of `build_session_upsert_payload`. -/
structure SessionUpdate where
  sessionId : String
  startTime : Time
  endTime : Time
  sourceIp : String
  destinationIp : String
  sourcePort : Option ℕ
  destinationPort : Option ℕ
  protocol : ℕ
  packetCount : ℕ
  byteCount : ℤ
  duration : Time
  riskScore : ℚ
  mlPrediction : Option String
  heuristicResult : String
  state : String
  actionTaken : String
  deriving DecidableEq

/-- `_risk_score`. -/
def riskScore (label : Option String) (confidence : ℚ) (heuristicScore : ℕ) : ℚ :=
  let mlScore := if label = none ∨ label = some "Normal Traffic" then 0 else confidence
  let heuristicScoreNormalized := min 1 (max 0 ((heuristicScore : ℚ) / 10))
  round4 (max mlScore heuristicScoreNormalized)

/-- `heuristic_summary`. -/
def heuristicSummary (decision : HeuristicDecision) : String :=
  s!"{decision.reason}:{decision.score}"

/-- The score can be read back from the summary. -/
theorem score_of_heuristicSummary {decision decision' : HeuristicDecision}
    (h : heuristicSummary decision = heuristicSummary decision') :
    decision.score = decision'.score := by
  obtain ⟨-, hscore⟩ := Separated.inj_of_lacks_right rfl
    (Separated.lacks_toString (by decide) _) (Separated.lacks_toString (by decide) _) h
  exact Separated.toString_nat_inj hscore

/-- `build_session_upsert_payload`. -/
def buildSessionUpsertPayload (key : SessionKey) (session : TrafficSession) (state : String)
    (prediction : Option Prediction) (decision : HeuristicDecision) : SessionUpdate :=
  let confidence := prediction.elim 0 (·.confidence)
  let mlPrediction := prediction.map (·.label)
  { sessionId := sessionKeyStr key
    startTime := session.startTime
    endTime := session.lastSeen
    sourceIp := session.srcIp
    destinationIp := session.dstIp
    sourcePort := session.srcPort
    destinationPort := session.dstPort
    protocol := session.protocol
    packetCount := session.packetCount
    byteCount := session.totalBytes
    duration := session.duration
    riskScore := riskScore mlPrediction confidence decision.score
    mlPrediction := mlPrediction
    heuristicResult := heuristicSummary decision
    state := state
    actionTaken := if state = "active" then "allowed" else state }

/-! ## Alerts and block events -/

/-- The `update_type` of an alert of a session. -/
inductive UpdateType where
  | new
  | updated
  | final
  deriving DecidableEq, Repr

/-- The alert dictionaries.  `sessionId` and `updateType` are added by
`_emit_session_alert` and missing from the alerts about a packet. -/
structure Alert where
  type : String
  attackType : String
  confidence : ℚ
  blocked : Bool
  blockStatus : String
  blockDurationSeconds : ℤ
  srcIp : String
  dstIp : String
  srcPort : Option ℕ
  dstPort : Option ℕ
  protocol : ℕ
  timestamp : Time
  isFinal : Bool
  sessionId : Option String
  updateType : Option UpdateType
  deriving DecidableEq

/-- The first entry of `_session_alert_state`. -/
structure Signature where
  attackType : String
  confidence : ℚ
  blocked : Bool
  deriving DecidableEq

def Alert.signature (a : Alert) : Signature := ⟨a.attackType, round4 a.confidence, a.blocked⟩

/-- The payload of `_publish_block_event`. -/
structure BlockEvent where
  eventId : String
  timestamp : Time
  sourceIp : String
  actionTaken : String
  reason : String
  detectionMethod : String
  sessionId : Option String
  sourcePort : Option ℕ
  destinationIp : Option String
  destinationPort : Option ℕ
  protocol : Option ℕ
  deriving DecidableEq

end SmartIDS.PacketCapture
