import Mathlib.Data.List.Dedup
import Mathlib.Data.List.Sort
import Mathlib.Algebra.Order.Field.Rat
import SmartIDS.Foundation.Machine
import SmartIDS.Foundation.Window
import SmartIDS.PacketCapture.PacketData
set_option autoImplicit false

/-!
# ThreatDetection: the packet-level heuristic detector

`threat_detection/heuristic.py`.  For every source address the detector keeps
three queues of recent observations, each with its own window: all packets
(2 s), packets with a destination port (5 s) and SYN packets without ACK (3 s).
A queue is trimmed when an observation of its own kind arrives from that source,
and for every source by a sweep that runs at most once per prune interval.
-/

namespace SmartIDS.ThreatDetection

open SmartIDS.Foundation SmartIDS.PacketCapture

/-- `_positive_int`: `parsed` is what `int(value)` gave, `none` when it raised
`TypeError` or `ValueError`. -/
def positiveInt (parsed : Option ℤ) (default : ℤ) : ℤ := max 1 (parsed.getD default)

theorem one_le_positiveInt (parsed : Option ℤ) (default : ℤ) :
    1 ≤ positiveInt parsed default := le_max_left _ _

structure HeuristicDecision where
  suspicious : Bool
  reason : String
  score : ℕ
  deriving DecidableEq, Repr

/-- The two settings the constructor reads. -/
structure HeuristicConfig where
  maxTrackedIps : ℕ
  pruneIntervalSeconds : Time
  maxTrackedIps_pos : 1 ≤ maxTrackedIps
  pruneIntervalSeconds_pos : 0 < pruneIntervalSeconds

/-- The settings as `__init__` parses them. -/
def HeuristicConfig.init (maxTrackedIps pruneIntervalSeconds : Option ℤ) : HeuristicConfig where
  maxTrackedIps := (positiveInt maxTrackedIps 10000).toNat
  pruneIntervalSeconds := positiveInt pruneIntervalSeconds 1
  maxTrackedIps_pos := by
    have := one_le_positiveInt maxTrackedIps 10000
    omega
  pruneIntervalSeconds_pos := by
    have : (0 : ℤ) < positiveInt pruneIntervalSeconds 1 := one_le_positiveInt _ _
    exact_mod_cast this

def burstWindowSeconds : Time := 2
def burstPacketThreshold : ℕ := 40
def portSweepWindowSeconds : Time := 5
def portSweepUniquePortsThreshold : ℕ := 15
def synWindowSeconds : Time := 3
def synOnlyThreshold : ℕ := 20

def sensitivePorts : List ℕ := [21, 22, 23, 25, 53, 80, 110, 135, 139, 143, 443, 445, 3389]

/-- The detector's mutable state. -/
structure HeuristicDetector where
  enabled : Bool := true
  srcPacketTimes : Dict String (List Time) := Dict.empty
  srcRecentDstPorts : Dict String (List (Time × ℕ)) := Dict.empty
  srcSynOnlyTimes : Dict String (List Time) := Dict.empty
  lastSeen : Dict String Time := Dict.empty
  lastPrunedAt : Option Time := none

/-! ## Recording one observation -/

/-- The common body of the three `_append_*` methods: append the observation to
the source's queue and pop the head while it is older than the window.  Without
an observation of its kind the method returns before touching the queue. -/
def appendEntry {β : Type} (stamp : β → Time) (window : Time) (srcIp : String) (timestamp : Time)
    (entry : Option β) (d : Dict String (List β)) : Dict String (List β) :=
  match entry with
  | none => d
  | some x => d.set srcIp (Window.trim stamp (timestamp - window) (d.queue srcIp ++ [x]))

/-- What `_append_time` records: every packet. -/
def timeEntry (p : PacketData) : Option Time := some p.timestamp

/-- What `_append_dst_port` records: packets with a destination port. -/
def dstPortEntry (p : PacketData) : Option (Time × ℕ) :=
  p.dstPort.map fun port => (p.timestamp, port)

/-- What `_append_syn_only` records: SYN set and ACK clear. -/
def synOnlyEntry (p : PacketData) : Option Time :=
  if p.hasFlag 0x02 && !p.hasFlag 0x10 then some p.timestamp else none

/-- The source's last-seen time moves with every recorded observation. -/
def touch {β : Type} (srcIp : String) (timestamp : Time) (entry : Option β)
    (lastSeen : Dict String Time) : Dict String Time :=
  match entry with
  | none => lastSeen
  | some _ => lastSeen.set srcIp timestamp

namespace HeuristicDetector

def appendTime (p : PacketData) (d : HeuristicDetector) : HeuristicDetector :=
  { d with
    srcPacketTimes :=
      appendEntry id burstWindowSeconds p.srcIp p.timestamp (timeEntry p) d.srcPacketTimes
    lastSeen := touch p.srcIp p.timestamp (timeEntry p) d.lastSeen }

def appendDstPort (p : PacketData) (d : HeuristicDetector) : HeuristicDetector :=
  { d with
    srcRecentDstPorts :=
      appendEntry Prod.fst portSweepWindowSeconds p.srcIp p.timestamp (dstPortEntry p)
        d.srcRecentDstPorts
    lastSeen := touch p.srcIp p.timestamp (dstPortEntry p) d.lastSeen }

def appendSynOnly (p : PacketData) (d : HeuristicDetector) : HeuristicDetector :=
  { d with
    srcSynOnlyTimes :=
      appendEntry id synWindowSeconds p.srcIp p.timestamp (synOnlyEntry p) d.srcSynOnlyTimes
    lastSeen := touch p.srcIp p.timestamp (synOnlyEntry p) d.lastSeen }

/-! ## The periodic sweep -/

/-- `set(times) | set(ports) | set(syns)`; the order of a Python set is not
specified, the model lists first occurrences. -/
def trackedIps (d : HeuristicDetector) : List String :=
  (d.srcPacketTimes.keys ++ d.srcRecentDstPorts.keys ++ d.srcSynOnlyTimes.keys).dedup

/-- Trim the queue of one source, when there is one. -/
def trimQueue {β : Type} (stamp : β → Time) (cutoff : Time) (srcIp : String)
    (d : Dict String (List β)) : Dict String (List β) :=
  match d.get? srcIp with
  | none => d
  | some q => d.set srcIp (Window.trim stamp cutoff q)

/-- Drop a source from all four maps. -/
def forget (d : HeuristicDetector) (srcIp : String) : HeuristicDetector :=
  { d with
    srcPacketTimes := d.srcPacketTimes.erase srcIp
    srcRecentDstPorts := d.srcRecentDstPorts.erase srcIp
    srcSynOnlyTimes := d.srcSynOnlyTimes.erase srcIp
    lastSeen := d.lastSeen.erase srcIp }

/-- Trim the three queues of one source. -/
def trimIp (now : Time) (d : HeuristicDetector) (srcIp : String) : HeuristicDetector :=
  { d with
    srcPacketTimes := trimQueue id (now - burstWindowSeconds) srcIp d.srcPacketTimes
    srcRecentDstPorts :=
      trimQueue Prod.fst (now - portSweepWindowSeconds) srcIp d.srcRecentDstPorts
    srcSynOnlyTimes := trimQueue id (now - synWindowSeconds) srcIp d.srcSynOnlyTimes }

/-- Nothing is left in any of the three queues of the source. -/
def isEmptyIp (d : HeuristicDetector) (srcIp : String) : Bool :=
  (d.srcPacketTimes.queue srcIp).isEmpty && (d.srcRecentDstPorts.queue srcIp).isEmpty &&
    (d.srcSynOnlyTimes.queue srcIp).isEmpty

/-- The body of the sweep's loop: trim, and drop a source left without entries. -/
def sweepIp (now : Time) (d : HeuristicDetector) (srcIp : String) : HeuristicDetector :=
  let trimmed := d.trimIp now srcIp
  if trimmed.isEmptyIp srcIp then trimmed.forget srcIp else trimmed

/-- `self._last_seen.get(src_ip, 0.0)`. -/
def lastSeenOf (d : HeuristicDetector) (srcIp : String) : Time := (d.lastSeen.get? srcIp).getD 0

/-- The overflow phase of the sweep: evict the least recently seen sources.  Among sources seen
last at the same time the order is fixed here; that of the Python set is arbitrary. -/
def evictOverflow (cfg : HeuristicConfig) (d : HeuristicDetector) : HeuristicDetector :=
  if d.trackedIps.length ≤ cfg.maxTrackedIps then d
  else
    let orderedIps := d.trackedIps.insertionSort fun a b => d.lastSeenOf a ≤ d.lastSeenOf b
    (orderedIps.take (d.trackedIps.length - cfg.maxTrackedIps)).foldl forget d

def pruneTrackedIps (cfg : HeuristicConfig) (now : Time) (d : HeuristicDetector) :
    HeuristicDetector :=
  (d.trackedIps.foldl (sweepIp now) d).evictOverflow cfg

end HeuristicDetector

/-- A sweep is due: none has run yet, or the last is an interval ago. -/
def sweepDue (interval : Time) (lastPrunedAt : Option Time) (timestamp : Time) : Bool :=
  match lastPrunedAt with
  | none => true
  | some last => interval ≤ timestamp - last

/-! ## Scoring -/

/-- `score += weight; reasons.append(reason)` under a condition. -/
def flag (fires : Bool) (weight : ℕ) (reason : String) (acc : ℕ × List String) :
    ℕ × List String :=
  if fires then (acc.1 + weight, acc.2 ++ [reason]) else acc

theorem fst_flag (fires : Bool) (weight : ℕ) (reason : String) (acc : ℕ × List String) :
    (flag fires weight reason acc).1 = acc.1 + if fires then weight else 0 := by
  cases fires <;> simp [flag]

/-- The part of the score that depends on the packet alone. -/
def packetScore (p : PacketData) : ℕ × List String :=
  (0, [])
    |> flag (p.srcPort.isNone && p.dstPort.isNone) 2 "no_transport_ports"
    |> flag (p.packetSize ≤ 0) 3 "invalid_packet_size"
    |> flag (p.packetSize < 40) 1 "tiny_packet"
    |> flag (p.dstPort.any (· ∈ sensitivePorts)) 1 "sensitive_service_probe"

/-- The whole score, given the lengths of the source's three windows. -/
def windowScore (p : PacketData) (packetTimes uniquePorts synOnlyTimes : ℕ) : ℕ × List String :=
  packetScore p
    |> flag (burstPacketThreshold ≤ packetTimes) 3 "scan_burst"
    |> flag (portSweepUniquePortsThreshold ≤ uniquePorts) 3 "port_sweep"
    |> flag (synOnlyThreshold ≤ synOnlyTimes) 4 "syn_only_surge"

/-- The decision for a packet, given the lengths of the source's three windows. -/
def assess (p : PacketData) (packetTimes uniquePorts synOnlyTimes : ℕ) : HeuristicDecision :=
  let (score, reasons) := windowScore p packetTimes uniquePorts synOnlyTimes
  { suspicious := 2 ≤ score
    reason := if reasons.isEmpty then "clean" else ",".intercalate reasons
    score := score }

/-- `len({port for _, port in recent_ports})`. -/
def countUniquePorts (recentPorts : List (Time × ℕ)) : ℕ :=
  (recentPorts.map Prod.snd).dedup.length

namespace HeuristicDetector

/-- The state changes `evaluate_packet` makes before it scores the packet. -/
def observe (cfg : HeuristicConfig) (d : HeuristicDetector) (p : PacketData) :
    HeuristicDetector :=
  let d := ((d.appendTime p).appendDstPort p).appendSynOnly p
  if sweepDue cfg.pruneIntervalSeconds d.lastPrunedAt p.timestamp then
    { d.pruneTrackedIps cfg p.timestamp with lastPrunedAt := some p.timestamp }
  else d

def evaluatePacket (cfg : HeuristicConfig) (d : HeuristicDetector) (p : PacketData) :
    HeuristicDetector × HeuristicDecision :=
  if !d.enabled then (d, { suspicious := false, reason := "disabled", score := 0 })
  else
    let d := d.observe cfg p
    (d, assess p (d.srcPacketTimes.queue p.srcIp).length
      (countUniquePorts (d.srcRecentDstPorts.queue p.srcIp))
      (d.srcSynOnlyTimes.queue p.srcIp).length)

theorem evaluatePacket_of_enabled {cfg : HeuristicConfig} {d : HeuristicDetector}
    (henabled : d.enabled = true) (p : PacketData) :
    d.evaluatePacket cfg p = (d.observe cfg p,
      assess p ((d.observe cfg p).srcPacketTimes.queue p.srcIp).length
        (countUniquePorts ((d.observe cfg p).srcRecentDstPorts.queue p.srcIp))
        ((d.observe cfg p).srcSynOnlyTimes.queue p.srcIp).length) := by
  simp [evaluatePacket, henabled]

/-- The detector as a machine: packets in, decisions out. -/
def machine (cfg : HeuristicConfig) : Machine HeuristicDetector PacketData HeuristicDecision where
  step := evaluatePacket cfg

end HeuristicDetector

end SmartIDS.ThreatDetection
