import Mathlib.Algebra.Order.Group.Int
import SmartIDS.Foundation.Dispersion
import SmartIDS.TrafficEngine.TrafficSession
set_option autoImplicit false

/-!
# TrafficEngine: a session of one direction

The key of a session has a direction, so a session only receives packets that
its forward test accepts.  Its forward totals are then its totals, and all of
them are functions of the packets it was built from.
-/

namespace SmartIDS.TrafficEngine

open SmartIDS.Foundation SmartIDS.PacketCapture

namespace TrafficSession

/-- The forward test of `update`. -/
def IsForward (s : TrafficSession) (p : PacketData) : Prop := p.srcIp = s.srcIp ∧ p.dstIp = s.dstIp

/-- The size of a payload that is not empty. -/
def payload? (p : PacketData) : Option ℤ :=
  match p.payloadSize with
  | some size => if 0 < size then some size else none
  | none => none

def payloads (ps : List PacketData) : List ℤ := ps.filterMap payload?

/-- The flag counts of a list of packets. -/
def flagCountsOf (ps : List PacketData) : FlagCounts where
  fin := ps.countP (·.hasFlag 0x01)
  syn := ps.countP (·.hasFlag 0x02)
  rst := ps.countP (·.hasFlag 0x04)
  psh := ps.countP (·.hasFlag 0x08)
  ack := ps.countP (·.hasFlag 0x10)
  urg := ps.countP (·.hasFlag 0x20)

/-- The session holds the totals of these packets, and all of them are forward. -/
structure Directed (ps : List PacketData) (s : TrafficSession) : Prop where
  isForward : ∀ p ∈ ps, s.IsForward p
  packetCount : s.packetCount = ps.length
  totalBytes : s.totalBytes = (ps.map (·.packetSize)).sum
  packetLengths : s.packetLengths = ps.map (·.packetSize)
  packetTimestamps : s.packetTimestamps = ps.map (·.timestamp)
  fwdPacketCount : s.fwdPacketCount = s.packetCount
  fwdTotalBytes : s.fwdTotalBytes = s.totalBytes
  fwdPacketLengths : s.fwdPacketLengths = s.packetLengths
  fwdPacketTimestamps : s.fwdPacketTimestamps = s.packetTimestamps
  flagCounts : s.flagCounts = flagCountsOf ps
  actDataPktFwd : s.actDataPktFwd = (payloads ps).length
  minSegSizeForward : s.minSegSizeForward = (payloads ps).min?

theorem directed_opened (p : PacketData) : Directed [] (opened p) where
  isForward := fun _ hq => absurd hq List.not_mem_nil
  packetCount := rfl
  totalBytes := rfl
  packetLengths := rfl
  packetTimestamps := rfl
  fwdPacketCount := rfl
  fwdTotalBytes := rfl
  fwdPacketLengths := rfl
  fwdPacketTimestamps := rfl
  flagCounts := rfl
  actDataPktFwd := rfl
  minSegSizeForward := rfl

/-- A packet the forward test accepts goes through every part of `update`. -/
theorem update_of_isForward {s : TrafficSession} {p : PacketData} (h : s.IsForward p) :
    s.update p = updateTcpFlags (updateForward (updateTotals s p) p) p := by
  have htest : (p.srcIp = s.srcIp && p.dstIp = s.dstIp : Bool) = true := by simp [h.1, h.2]
  simp only [update, htest, if_true]

theorem isForward_update (s : TrafficSession) (p q : PacketData) :
    (s.update p).IsForward q ↔ s.IsForward q := by
  have haddresses : (s.update p).srcIp = s.srcIp ∧ (s.update p).dstIp = s.dstIp := by
    simp only [update, updateTcpFlags]
    split_ifs <;> exact ⟨rfl, rfl⟩
  rw [IsForward, haddresses.1, haddresses.2, IsForward]

theorem countFlag_eq (ps : List PacketData) (p : PacketData) (mask : ℕ) :
    countFlag p mask (ps.countP (·.hasFlag mask)) = (ps ++ [p]).countP (·.hasFlag mask) := by
  rw [List.countP_append, List.countP_singleton, countFlag]
  split_ifs <;> rfl

/-- One packet more. -/
theorem Directed.update {ps : List PacketData} {s : TrafficSession} (h : Directed ps s)
    {p : PacketData} (hp : s.IsForward p) : Directed (ps ++ [p]) (s.update p) := by
  have hforward : ∀ q ∈ ps ++ [p], (s.update p).IsForward q := by
    intro q hq
    rw [isForward_update]
    rcases List.mem_append.mp hq with hold | hnew
    · exact h.isForward q hold
    · rw [List.mem_singleton.mp hnew]
      exact hp
  have hpayloads : payloads (ps ++ [p]) = payloads ps ++ (payload? p).toList := by
    rw [payloads, List.filterMap_append, List.filterMap_cons, List.filterMap_nil]
    cases payload? p <;> rfl
  refine ⟨hforward, ?_, ?_, ?_, ?_, ?_, ?_, ?_, ?_, ?_, ?_, ?_⟩ <;> rw [update_of_isForward hp]
  · show s.packetCount + 1 = _
    rw [h.packetCount, List.length_append, List.length_singleton]
  · show s.totalBytes + p.packetSize = _
    rw [h.totalBytes, List.map_append, List.sum_append, List.map_singleton, List.sum_singleton]
  · show s.packetLengths ++ [p.packetSize] = _
    rw [h.packetLengths, List.map_append, List.map_singleton]
  · show s.packetTimestamps ++ [p.timestamp] = _
    rw [h.packetTimestamps, List.map_append, List.map_singleton]
  · show s.fwdPacketCount + 1 = s.packetCount + 1
    rw [h.fwdPacketCount]
  · show s.fwdTotalBytes + p.packetSize = s.totalBytes + p.packetSize
    rw [h.fwdTotalBytes]
  · show s.fwdPacketLengths ++ [p.packetSize] = s.packetLengths ++ [p.packetSize]
    rw [h.fwdPacketLengths]
  · show s.fwdPacketTimestamps ++ [p.timestamp] = s.packetTimestamps ++ [p.timestamp]
    rw [h.fwdPacketTimestamps]
  · simp only [updateTcpFlags, updateForward, updateTotals, h.flagCounts, flagCountsOf,
      countFlag_eq]
  · simp only [updateTcpFlags, updateForward, updateTotals, h.actDataPktFwd, hpayloads, payload?]
    cases p.payloadSize with
    | none => simp
    | some size =>
      rcases em (0 < size) with hsize | hsize
      · simp only [if_pos hsize, Option.toList_some, List.length_append, List.length_singleton]
      · simp only [if_neg hsize, Option.toList_none, List.append_nil]
  · simp only [updateTcpFlags, updateForward, updateTotals, h.minSegSizeForward, hpayloads,
      payload?]
    cases p.payloadSize with
    | none => simp
    | some size =>
      rcases em (0 < size) with hsize | hsize
      · simp only [if_pos hsize, Option.toList_some, min?_concat]
      · simp only [if_neg hsize, Option.toList_none, List.append_nil]

theorem Directed.foldl (qs : List PacketData) {ps : List PacketData} {s : TrafficSession}
    (h : Directed ps s) (hqs : ∀ q ∈ qs, s.IsForward q) :
    Directed (ps ++ qs) (qs.foldl TrafficSession.update s) := by
  induction qs generalizing ps s with
  | nil =>
    rw [List.append_nil]
    exact h
  | cons q qs ih =>
    have hnext := ih (h.update (hqs q List.mem_cons_self)) fun r hr =>
      (isForward_update s q r).mpr (hqs r (List.mem_cons_of_mem _ hr))
    rw [List.append_assoc] at hnext
    exact hnext

/-- A session built from packets of one 5-tuple is directed. -/
theorem directed_of_recorded {ps : List PacketData} {s : TrafficSession} {k : SessionKey}
    (h : recorded ps = some s) (hkey : ∀ p ∈ ps, SessionKey.fromPacket p = k) : Directed ps s := by
  cases ps with
  | nil => cases h
  | cons p rest =>
    rw [recorded, Option.some.injEq] at h
    have hforward : ∀ q ∈ p :: rest, (opened p).IsForward q := by
      intro q hq
      have hsame : SessionKey.fromPacket q = SessionKey.fromPacket p :=
        (hkey q hq).trans (hkey p List.mem_cons_self).symm
      rw [SessionKey.fromPacket, SessionKey.fromPacket, SessionKey.mk.injEq] at hsame
      exact ⟨hsame.1, hsame.2.1⟩
    rw [← h]
    exact (directed_opened p).foldl (p :: rest) hforward

/-! ## Payloads -/

theorem length_payloads_le (ps : List PacketData) : (payloads ps).length ≤ ps.length :=
  List.length_filterMap_le _ _

/-- The least payload is positive if there is one. -/
theorem min?_payloads_getD_eq_zero_iff (ps : List PacketData) :
    (payloads ps).min?.getD 0 = 0 ↔ (payloads ps).length = 0 := by
  cases hmin : (payloads ps).min? with
  | none =>
    rw [List.min?_eq_none_iff] at hmin
    simp [hmin]
  | some least =>
    have hmem : least ∈ payloads ps := List.min?_mem hmin
    obtain ⟨p, -, hpayload⟩ := List.mem_filterMap.mp hmem
    have hpos : 0 < least := by
      unfold payload? at hpayload
      split at hpayload
      · split_ifs at hpayload with hsize
        rw [Option.some.injEq] at hpayload
        omega
      · cases hpayload
    have hlen : 0 < (payloads ps).length := List.length_pos_of_mem hmem
    rw [Option.getD_some]
    omega

end TrafficSession

end SmartIDS.TrafficEngine
