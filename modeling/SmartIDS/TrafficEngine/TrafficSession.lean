import Mathlib.Algebra.Order.Field.Rat
import Mathlib.Data.List.Induction
import SmartIDS.PacketCapture.PacketData
set_option autoImplicit false

/-!
# TrafficEngine: one session

`session_builder/running_stats.py` and `session_builder/traffic_session.py`.  A
session aggregates the packets of one 5-tuple.  Sums and means are taken in
exact arithmetic.
-/

namespace SmartIDS.TrafficEngine

open SmartIDS.PacketCapture

/-- `RunningStats`: Welford's online algorithm. -/
structure RunningStats where
  count : ℕ
  mean : ℚ
  m2 : ℚ
  min : Option ℚ
  max : Option ℚ
  deriving DecidableEq

namespace RunningStats

def init : RunningStats := ⟨0, 0, 0, none, none⟩

def update (s : RunningStats) (value : ℚ) : RunningStats :=
  let count := s.count + 1
  let delta := value - s.mean
  let mean := s.mean + delta / count
  let delta2 := value - mean
  { count := count
    mean := mean
    m2 := s.m2 + delta * delta2
    min := match s.min with
      | none => some value
      | some least => if value < least then some value else some least
    max := match s.max with
      | none => some value
      | some greatest => if greatest < value then some value else some greatest }

end RunningStats

/-- `flag_counts`. -/
structure FlagCounts where
  fin : ℕ
  syn : ℕ
  rst : ℕ
  psh : ℕ
  ack : ℕ
  urg : ℕ
  deriving DecidableEq

structure TrafficSession where
  srcIp : String
  dstIp : String
  protocol : ℕ
  startTime : Time
  lastSeen : Time
  srcPort : Option ℕ
  dstPort : Option ℕ
  packetCount : ℕ
  totalBytes : ℤ
  packetLengths : List ℤ
  fwdPacketLengths : List ℤ
  packetTimestamps : List Time
  fwdPacketTimestamps : List Time
  packetLengthStats : RunningStats
  fwdPacketLengthStats : RunningStats
  fwdPacketCount : ℕ
  fwdTotalBytes : ℤ
  flagCounts : FlagCounts
  fwdHeaderLength : ℤ
  initWinBytesForward : Option ℤ
  actDataPktFwd : ℕ
  minSegSizeForward : Option ℤ
  finished : Bool
  deriving DecidableEq

namespace TrafficSession

/-- The session a packet opens, before it is recorded in it. -/
def opened (p : PacketData) : TrafficSession where
  srcIp := p.srcIp
  dstIp := p.dstIp
  protocol := p.protocol
  startTime := p.timestamp
  lastSeen := p.timestamp
  srcPort := p.srcPort
  dstPort := p.dstPort
  packetCount := 0
  totalBytes := 0
  packetLengths := []
  fwdPacketLengths := []
  packetTimestamps := []
  fwdPacketTimestamps := []
  packetLengthStats := .init
  fwdPacketLengthStats := .init
  fwdPacketCount := 0
  fwdTotalBytes := 0
  flagCounts := ⟨0, 0, 0, 0, 0, 0⟩
  fwdHeaderLength := 0
  initWinBytesForward := none
  actDataPktFwd := 0
  minSegSizeForward := none
  finished := false

/-- The forward half of `update`. -/
def updateForward (s : TrafficSession) (p : PacketData) : TrafficSession :=
  { s with
    fwdPacketCount := s.fwdPacketCount + 1
    fwdTotalBytes := s.fwdTotalBytes + p.packetSize
    fwdPacketLengths := s.fwdPacketLengths ++ [p.packetSize]
    fwdPacketTimestamps := s.fwdPacketTimestamps ++ [p.timestamp]
    fwdPacketLengthStats := s.fwdPacketLengthStats.update p.packetSize
    fwdHeaderLength := s.fwdHeaderLength + p.transportHeaderLength.getD 0
    initWinBytesForward := s.initWinBytesForward.or p.tcpWindowSize
    actDataPktFwd := match p.payloadSize with
      | some size => if 0 < size then s.actDataPktFwd + 1 else s.actDataPktFwd
      | none => s.actDataPktFwd
    minSegSizeForward := match p.payloadSize with
      | some size =>
        if 0 < size then some (s.minSegSizeForward.elim size (min · size))
        else s.minSegSizeForward
      | none => s.minSegSizeForward }

/-- One flag counter after a packet. -/
def countFlag (p : PacketData) (mask n : ℕ) : ℕ := if p.hasFlag mask then n + 1 else n

/-- `_update_tcp_flags`. -/
def updateTcpFlags (s : TrafficSession) (p : PacketData) : TrafficSession :=
  { s with
    flagCounts :=
      { fin := countFlag p 0x01 s.flagCounts.fin
        syn := countFlag p 0x02 s.flagCounts.syn
        rst := countFlag p 0x04 s.flagCounts.rst
        psh := countFlag p 0x08 s.flagCounts.psh
        ack := countFlag p 0x10 s.flagCounts.ack
        urg := countFlag p 0x20 s.flagCounts.urg }
    finished := s.finished || p.endsFlow }

/-- The part of `update` that every packet goes through. -/
def updateTotals (s : TrafficSession) (p : PacketData) : TrafficSession :=
  { s with
    packetCount := s.packetCount + 1
    totalBytes := s.totalBytes + p.packetSize
    lastSeen := p.timestamp
    packetLengths := s.packetLengths ++ [p.packetSize]
    packetTimestamps := s.packetTimestamps ++ [p.timestamp]
    packetLengthStats := s.packetLengthStats.update p.packetSize }

/-- `update`. -/
def update (s : TrafficSession) (p : PacketData) : TrafficSession :=
  let isForward := p.srcIp = s.srcIp && p.dstIp = s.dstIp
  let totals := updateTotals s p
  updateTcpFlags (if isForward then updateForward totals p else totals) p

/-- `duration`; `age` is the same. -/
def duration (s : TrafficSession) : Time := max 0 (s.lastSeen - s.startTime)

def age (s : TrafficSession) : Time := s.duration

/-- `average_packet_size`. -/
def averagePacketSize (s : TrafficSession) : ℚ :=
  if s.packetCount = 0 then 0 else s.totalBytes / s.packetCount

/-! ## What an update changes -/

@[simp] theorem finished_update (s : TrafficSession) (p : PacketData) :
    (s.update p).finished = (s.finished || p.endsFlow) := by
  simp only [update, updateTcpFlags]
  split_ifs <;> rfl

@[simp] theorem packetCount_update (s : TrafficSession) (p : PacketData) :
    (s.update p).packetCount = s.packetCount + 1 := by
  simp only [update, updateTcpFlags]
  split_ifs <;> rfl

@[simp] theorem lastSeen_update (s : TrafficSession) (p : PacketData) :
    (s.update p).lastSeen = p.timestamp := by
  simp only [update, updateTcpFlags]
  split_ifs <;> rfl

@[simp] theorem startTime_update (s : TrafficSession) (p : PacketData) :
    (s.update p).startTime = s.startTime := by
  simp only [update, updateTcpFlags]
  split_ifs <;> rfl

@[simp] theorem srcIp_update (s : TrafficSession) (p : PacketData) :
    (s.update p).srcIp = s.srcIp := by
  simp only [update, updateTcpFlags]
  split_ifs <;> rfl

/-! ## The session of a list of packets -/

/-- The session a list of packets builds up: the first one opens it. -/
def recorded : List PacketData → Option TrafficSession
  | [] => none
  | p :: rest => some ((p :: rest).foldl update (opened p))

theorem recorded_singleton (p : PacketData) : recorded [p] = some ((opened p).update p) := rfl

/-- One more packet updates the session. -/
theorem recorded_concat {ps : List PacketData} {s : TrafficSession} (p : PacketData)
    (h : recorded ps = some s) : recorded (ps ++ [p]) = some (s.update p) := by
  cases ps with
  | nil => simp [recorded] at h
  | cons q rest =>
    rw [recorded, Option.some.injEq] at h
    rw [List.cons_append, recorded, ← List.cons_append, List.foldl_append, h]
    rfl

/-- What the fields of a session say about the packets that built it. -/
structure Describes (ps : List PacketData) (s : TrafficSession) : Prop where
  packetCount : s.packetCount = ps.length
  startTime : ps.head?.map (·.timestamp) = some s.startTime
  lastSeen : ps.getLast?.map (·.timestamp) = some s.lastSeen
  finished : s.finished = ps.any (·.endsFlow)
  srcIp : ps.head?.map (·.srcIp) = some s.srcIp

theorem recorded_describes {ps : List PacketData} {s : TrafficSession} (h : recorded ps = some s) :
    Describes ps s := by
  induction ps using List.reverseRecOn generalizing s with
  | nil => simp [recorded] at h
  | append_singleton ps p ih =>
    rcases eq_or_ne ps [] with rfl | hne
    · rw [List.nil_append, recorded_singleton, Option.some.injEq] at h
      subst h
      constructor <;> simp [opened]
    · obtain ⟨q, rest, rfl⟩ := List.exists_cons_of_ne_nil hne
      have hs' : recorded (q :: rest) = some ((q :: rest).foldl update (opened q)) := rfl
      rw [recorded_concat p hs', Option.some.injEq] at h
      subst h
      have hold := ih hs'
      constructor
      · rw [packetCount_update, hold.packetCount, List.length_append]
        rfl
      · rw [startTime_update]
        exact hold.startTime
      · rw [List.getLast?_append, lastSeen_update]
        rfl
      · rw [finished_update, hold.finished, List.any_append]
        simp
      · rw [srcIp_update]
        exact hold.srcIp

end TrafficSession

end SmartIDS.TrafficEngine
