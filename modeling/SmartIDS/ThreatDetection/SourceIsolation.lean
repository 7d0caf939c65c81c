import SmartIDS.ThreatDetection.HeuristicWindows
set_option autoImplicit false

/-!
# ThreatDetection: what the detector knows about one source

While there is room for every source, the queues of a source and the time of the
last sweep depend on the packets of that source and on the time stamps of all
packets, and on nothing else.  Packets of other sources are invisible in the
decisions about this one.
-/

namespace SmartIDS.ThreatDetection

open SmartIDS.Foundation SmartIDS.PacketCapture

/-- A detector that tracks some of the sources `ips` and has room for all of them. -/
structure Roomy (cfg : HeuristicConfig) (ips : List String) (d : HeuristicDetector) : Prop where
  enabled : d.enabled = true
  tracked : d.trackedIps ⊆ ips
  room : ips.length ≤ cfg.maxTrackedIps

theorem roomy_init {cfg : HeuristicConfig} {ips : List String}
    (hroom : ips.length ≤ cfg.maxTrackedIps) : Roomy cfg ips {} :=
  ⟨rfl, List.nil_subset ips, hroom⟩

theorem Roomy.hasRoom {cfg : HeuristicConfig} {ips : List String} {d : HeuristicDetector}
    {p : PacketData} (h : Roomy cfg ips d) (hsource : p.srcIp ∈ ips) : d.HasRoom cfg p := by
  have hsub : (d.append p).trackedIps ⊆ ips := by
    intro s hs
    obtain rfl | hs := HeuristicDetector.mem_trackedIps_append hs
    · exact hsource
    · exact h.tracked hs
  exact le_trans ((HeuristicDetector.nodup_trackedIps _).subperm hsub).length_le h.room

theorem Roomy.observe {cfg : HeuristicConfig} {ips : List String} {d : HeuristicDetector}
    {p : PacketData} (h : Roomy cfg ips d) (hsource : p.srcIp ∈ ips) :
    Roomy cfg ips (d.observe cfg p) := by
  have hroom := h.hasRoom hsource
  refine ⟨(HeuristicDetector.enabled_observe hroom).trans h.enabled, fun s hs => ?_, h.room⟩
  obtain rfl | hs := HeuristicDetector.trackedIps_observe hroom hs
  · exact hsource
  · exact h.tracked hs

/-- The two detectors hold the same about the source `s`. -/
structure SameView (s : String) (d d' : HeuristicDetector) : Prop where
  pruned : d'.lastPrunedAt = d.lastPrunedAt
  queue : ∀ {β : Type} (K : QueueKind β), (K.proj d').queue s = (K.proj d).queue s

theorem SameView.refl (s : String) (d : HeuristicDetector) : SameView s d d := ⟨rfl, fun _ => rfl⟩

section

variable {cfg : HeuristicConfig} {ips ips' : List String} {d d' : HeuristicDetector}
  {p p' : PacketData} {s : String}

/-- Packets at the same time that add the same to the queues of the source. -/
theorem SameView.observe (h : SameView s d d') (hroom : Roomy cfg ips d)
    (hroom' : Roomy cfg ips' d') (hsource : p.srcIp ∈ ips) (hsource' : p'.srcIp ∈ ips')
    (htime : p'.timestamp = p.timestamp)
    (hown : ∀ {β : Type} (K : QueueKind β), K.ownEntry s p' = K.ownEntry s p) :
    SameView s (d.observe cfg p) (d'.observe cfg p') := by
  refine ⟨?_, fun K => ?_⟩
  · rw [HeuristicDetector.lastPrunedAt_observe, HeuristicDetector.lastPrunedAt_observe, h.pruned,
      htime]
  · rw [K.queue_observe (hroom.hasRoom hsource), K.queue_observe (hroom'.hasRoom hsource'),
      h.pruned, htime, hown K, h.queue K]

/-- Two packets of other sources at the same time. -/
theorem SameView.foreign (h : SameView s d d') (hroom : Roomy cfg ips d)
    (hroom' : Roomy cfg ips' d') (hsource : p.srcIp ∈ ips) (hsource' : p'.srcIp ∈ ips')
    (htime : p'.timestamp = p.timestamp) (hne : p.srcIp ≠ s) (hne' : p'.srcIp ≠ s) :
    SameView s (d.observe cfg p) (d'.observe cfg p') := by
  refine h.observe hroom hroom' hsource hsource' htime fun K => ?_
  rw [QueueKind.ownEntry, QueueKind.ownEntry, if_neg hne.symm, if_neg hne'.symm]

/-- The same packet of the source: the views stay the same and so does the decision. -/
theorem SameView.own (h : SameView p.srcIp d d') (hroom : Roomy cfg ips d)
    (hroom' : Roomy cfg ips' d') (hsource : p.srcIp ∈ ips) (hsource' : p.srcIp ∈ ips') :
    SameView p.srcIp (d.observe cfg p) (d'.observe cfg p) ∧
      (d'.evaluatePacket cfg p).2 = (d.evaluatePacket cfg p).2 := by
  have hnext := h.observe hroom hroom' hsource hsource' rfl fun _ => rfl
  refine ⟨hnext, ?_⟩
  rw [HeuristicDetector.evaluatePacket_of_enabled hroom.enabled,
    HeuristicDetector.evaluatePacket_of_enabled hroom'.enabled]
  have hburst : (d'.observe cfg p).srcPacketTimes.queue p.srcIp =
      (d.observe cfg p).srcPacketTimes.queue p.srcIp := hnext.queue burstQueue
  have hports : (d'.observe cfg p).srcRecentDstPorts.queue p.srcIp =
      (d.observe cfg p).srcRecentDstPorts.queue p.srcIp := hnext.queue portQueue
  have hsyns : (d'.observe cfg p).srcSynOnlyTimes.queue p.srcIp =
      (d.observe cfg p).srcSynOnlyTimes.queue p.srcIp := hnext.queue synQueue
  rw [hburst, hports, hsyns]

/-- A packet moves the detector by its observation. -/
theorem Roomy.fst_evaluatePacket (h : Roomy cfg ips d) :
    (d.evaluatePacket cfg p).1 = d.observe cfg p := by
  rw [HeuristicDetector.evaluatePacket_of_enabled h.enabled]

/-! ## A packet of another size -/

/-- The same packet, small if it was not and large if it was. -/
def resized (p : PacketData) : PacketData :=
  { p with packetSize := if p.packetSize < 40 then 100 else 30 }

/-- The queues do not record sizes. -/
theorem observe_resized (cfg : HeuristicConfig) (d : HeuristicDetector) (p : PacketData) :
    d.observe cfg (resized p) = d.observe cfg p := rfl

/-- The score does depend on the size. -/
theorem packetScore_resized (p : PacketData) : (packetScore (resized p)).1 ≠ (packetScore p).1 := by
  intro h
  have hsize : (resized p).packetSize = if p.packetSize < 40 then 100 else 30 := rfl
  have hsame : (resized p).srcPort = p.srcPort ∧ (resized p).dstPort = p.dstPort := ⟨rfl, rfl⟩
  simp only [packetScore, fst_flag, decide_eq_true_eq, hsize, hsame.1, hsame.2] at h
  rcases lt_or_ge p.packetSize 40 with hsmall | hlarge
  · simp only [hsmall, if_true] at h
    split_ifs at h <;> omega
  · simp only [not_lt.mpr hlarge, if_false] at h
    split_ifs at h <;> omega

theorem score_assess_resized (p : PacketData) (times ports syns : ℕ) :
    (assess (resized p) times ports syns).score ≠ (assess p times ports syns).score := by
  intro h
  simp only [assess, windowScore, fst_flag] at h
  have hpacket := packetScore_resized p
  omega

theorem score_evaluatePacket_resized (h : Roomy cfg ips d) :
    (d.evaluatePacket cfg (resized p)).2.score ≠ (d.evaluatePacket cfg p).2.score := by
  rw [HeuristicDetector.evaluatePacket_of_enabled h.enabled,
    HeuristicDetector.evaluatePacket_of_enabled h.enabled, observe_resized]
  exact score_assess_resized p _ _ _

end

end SmartIDS.ThreatDetection
