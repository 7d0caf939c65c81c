import SmartIDS.ThreatDetection.HeuristicWindows
set_option autoImplicit false

/-!
# ThreatDetection: when pruning is visible in the decisions

The reference detector of this module never prunes.  The detector agrees with it
exactly on the inputs without a stale surge: no packet finds its source's port or
SYN count lifted to the threshold by observations that have left the window but
are still queued, because nothing has trimmed that queue since.
-/

namespace SmartIDS.ThreatDetection

open SmartIDS.Foundation SmartIDS.PacketCapture

/-- The reference decision for the packet `p` that arrives after `h`. -/
def referenceDecision (h : List PacketData) (p : PacketData) : HeuristicDecision :=
  assess p (burstQueue.inWindow (h ++ [p]) p.srcIp p.timestamp).length
    (countUniquePorts (portQueue.inWindow (h ++ [p]) p.srcIp p.timestamp))
    (synQueue.inWindow (h ++ [p]) p.srcIp p.timestamp).length

/-- The decisions of the reference detector, which keeps the whole history. -/
def referenceDecisions (packets : List PacketData) : List HeuristicDecision :=
  Machine.alongPrefixes referenceDecision [] packets

/-- At the packet `p` that arrives after `h`, the counts that reach their
threshold in the untrimmed queues also reach it in the windows. -/
def NoStaleSurgeAt (interval : Time) (h : List PacketData) (p : PacketData) : Prop :=
  (portSweepUniquePortsThreshold ≤
      countUniquePorts (portQueue.retained interval (h ++ [p]) p.srcIp) →
    portSweepUniquePortsThreshold ≤
      countUniquePorts (portQueue.inWindow (h ++ [p]) p.srcIp p.timestamp)) ∧
  (synOnlyThreshold ≤ (synQueue.retained interval (h ++ [p]) p.srcIp).length →
    synOnlyThreshold ≤ (synQueue.inWindow (h ++ [p]) p.srcIp p.timestamp).length)

/-- No packet of the input meets a stale surge. -/
def NoStaleSurge (interval : Time) (packets : List PacketData) : Prop :=
  ∀ h p rest, packets = h ++ p :: rest → NoStaleSurgeAt interval h p

instance (interval : Time) (h : List PacketData) (p : PacketData) :
    Decidable (NoStaleSurgeAt interval h p) :=
  inferInstanceAs (Decidable (_ ∧ _))

/-! ## The detector represents its history -/

/-- The detector's state after the packets `h`. -/
structure Represents (cfg : HeuristicConfig) (h : List PacketData) (d : HeuristicDetector) :
    Prop where
  enabled : d.enabled = true
  tracked : d.trackedIps ⊆ h.map (·.srcIp)
  pruned : d.lastPrunedAt = lastSweep cfg.pruneIntervalSeconds h
  queue : ∀ {β : Type} (K : QueueKind β) (s : String),
    (K.proj d).queue s = K.retained cfg.pruneIntervalSeconds h s

/-- Chronological packets from few enough sources. -/
structure Admissible (cfg : HeuristicConfig) (packets : List PacketData) : Prop where
  inOrder : InOrder packets
  room : (sources packets).length ≤ cfg.maxTrackedIps

theorem length_sources_le_of_subset {xs ys : List PacketData}
    (h : xs.map (·.srcIp) ⊆ ys.map (·.srcIp)) : (sources xs).length ≤ (sources ys).length := by
  have hsub : sources xs ⊆ sources ys := by
    intro s hs
    rw [sources, List.mem_dedup] at hs ⊢
    exact h hs
  exact ((List.nodup_dedup _).subperm hsub).length_le

theorem Admissible.prefix {cfg : HeuristicConfig} {xs ys : List PacketData}
    (h : Admissible cfg (xs ++ ys)) : Admissible cfg xs where
  inOrder := (List.pairwise_append.mp h.inOrder).1
  room := by
    refine le_trans (length_sources_le_of_subset ?_) h.room
    rw [List.map_append]
    exact List.subset_append_left _ _

theorem represents_init (cfg : HeuristicConfig) : Represents cfg [] {} where
  enabled := rfl
  tracked := by simp [HeuristicDetector.trackedIps]
  pruned := rfl
  queue K s := by
    have : (K.proj {}).queue s = [] := K.queue_of_notMem (by simp [HeuristicDetector.trackedIps])
    simp [this, QueueKind.retained, QueueKind.horizon, Machine.alongPrefixes]

/-- With few enough sources a sweep evicts nobody. -/
theorem Represents.hasRoom {cfg : HeuristicConfig} {h : List PacketData} {d : HeuristicDetector}
    {p : PacketData} (hrep : Represents cfg h d) (hadm : Admissible cfg (h ++ [p])) :
    d.HasRoom cfg p := by
  have hsub : (d.append p).trackedIps ⊆ sources (h ++ [p]) := by
    intro s hs
    rw [sources, List.mem_dedup, List.map_append, List.mem_append]
    rcases HeuristicDetector.mem_trackedIps_append hs with rfl | hs
    · exact Or.inr (by simp)
    · exact Or.inl (hrep.tracked hs)
  exact le_trans ((HeuristicDetector.nodup_trackedIps _).subperm hsub).length_le hadm.room

theorem Represents.observe {cfg : HeuristicConfig} {h : List PacketData} {d : HeuristicDetector}
    {p : PacketData} (hrep : Represents cfg h d) (hadm : Admissible cfg (h ++ [p])) :
    Represents cfg (h ++ [p]) (d.observe cfg p) where
  enabled := by
    rw [HeuristicDetector.enabled_observe (hrep.hasRoom hadm)]
    exact hrep.enabled
  tracked := by
    intro s hs
    rw [List.map_append, List.mem_append]
    rcases HeuristicDetector.trackedIps_observe (hrep.hasRoom hadm) hs with rfl | hs
    · exact Or.inr (by simp)
    · exact Or.inl (hrep.tracked hs)
  pruned := by rw [HeuristicDetector.lastPrunedAt_observe, lastSweep_concat, hrep.pruned]
  queue K s := by
    rw [K.queue_observe (hrep.hasRoom hadm), hrep.pruned, hrep.queue]
    exact K.nextQueue_retained _ hadm.inOrder s

/-- The run lemma: the induction is on the packets, `Represents.observe` its step. -/
theorem represents_exec (cfg : HeuristicConfig) (packets : List PacketData)
    (hadm : Admissible cfg packets) :
    Represents cfg packets ((HeuristicDetector.machine cfg).exec {} packets) := by
  refine @Machine.exec_history _ _ _ (HeuristicDetector.machine cfg)
    (fun h d => Admissible cfg h → Represents cfg h d) {} (fun _ => represents_init cfg) ?_
    packets hadm
  intro h p d hrep hadm
  have hrep := hrep hadm.prefix
  have hstep : ((HeuristicDetector.machine cfg).step d p).1 = d.observe cfg p :=
    congrArg Prod.fst (HeuristicDetector.evaluatePacket_of_enabled hrep.enabled p)
  rw [hstep]
  exact hrep.observe hadm

/-! ## Retained observations against the window -/

namespace QueueKind

variable {β : Type} (K : QueueKind β)

/-- On chronological input the upper end of the window is no restriction. -/
theorem inWindow_concat {h : List PacketData} {p : PacketData} (horder : InOrder (h ++ [p]))
    (s : String) :
    K.inWindow (h ++ [p]) s p.timestamp =
      Window.since K.stamp (p.timestamp - K.window) (K.series (h ++ [p]) s) := by
  rw [inWindow, Window.since]
  apply List.filter_congr
  intro x hx
  obtain ⟨q, hq, hstamp⟩ := K.mem_series hx
  have hle : K.stamp x ≤ p.timestamp := by
    rw [hstamp]
    rcases List.mem_append.mp hq with hq | hq
    · exact (List.pairwise_append.mp horder).2.2 q hq p (by simp)
    · rw [List.mem_singleton.mp hq]
  simp [hle]

/-- When the packet trims the queue, nothing but the window is retained. -/
theorem retained_of_trims {interval : Time} {h : List PacketData} {p : PacketData}
    (horder : InOrder (h ++ [p])) {s : String} (htrims : K.trims interval s h p = true) :
    K.retained interval (h ++ [p]) s = K.inWindow (h ++ [p]) s p.timestamp := by
  simp [K.inWindow_concat horder, retained, K.horizon_concat, htrims]

/-- The window is a sublist of what is retained. -/
theorem inWindow_sublist_retained (interval : Time) {h : List PacketData} {p : PacketData}
    (horder : InOrder (h ++ [p])) (s : String) :
    (K.inWindow (h ++ [p]) s p.timestamp).Sublist (K.retained interval (h ++ [p]) s) := by
  rw [K.inWindow_concat horder]
  unfold retained
  cases hτ : K.horizon interval s (h ++ [p]) with
  | none => simp [K.horizon_eq_none hτ, series]
  | some τ =>
    obtain ⟨q, hq, rfl⟩ := K.horizon_mem hτ
    apply Window.since_sublist_since
    have hle : q.timestamp ≤ p.timestamp := by
      rcases List.mem_append.mp hq with hq | hq
      · exact (List.pairwise_append.mp horder).2.2 q hq p (by simp)
      · rw [List.mem_singleton.mp hq]
    linarith only [hle]

end QueueKind

theorem countUniquePorts_le_of_sublist {xs ys : List (Time × ℕ)} (h : xs.Sublist ys) :
    countUniquePorts xs ≤ countUniquePorts ys := by
  have hsub : (xs.map Prod.snd).dedup ⊆ (ys.map Prod.snd).dedup := by
    intro port hport
    rw [List.mem_dedup] at hport ⊢
    exact (h.map Prod.snd).subset hport
  exact ((List.nodup_dedup _).subperm hsub).length_le

/-- Every packet of a source is an observation of the burst queue, so the packet
itself trims it. -/
theorem trims_burstQueue (interval : Time) (h : List PacketData) (p : PacketData) :
    burstQueue.trims interval p.srcIp h p = true := by
  simp [QueueKind.trims, QueueKind.ownEntry, burstQueue, timeEntry]

/-! ## Decisions -/

/-- The weights 3 and 4 are told apart by the score alone, so two decisions that
differ in nothing but the last two counts agree exactly when both flags do. -/
theorem assess_eq_iff (p : PacketData) (times ports ports' syns syns' : ℕ) :
    assess p times ports syns = assess p times ports' syns' ↔
      (portSweepUniquePortsThreshold ≤ ports ↔ portSweepUniquePortsThreshold ≤ ports') ∧
        (synOnlyThreshold ≤ syns ↔ synOnlyThreshold ≤ syns') := by
  constructor
  · intro h
    have hscore := congrArg HeuristicDecision.score h
    simp only [assess, windowScore, fst_flag, decide_eq_true_eq] at hscore
    split_ifs at hscore <;> omega
  · rintro ⟨hports, hsyns⟩
    rw [assess, assess, windowScore, windowScore, decide_eq_decide.mpr hports,
      decide_eq_decide.mpr hsyns]

/-- One packet: the decision is the reference decision exactly when the packet
meets no stale surge. -/
theorem decision_eq_reference_iff {cfg : HeuristicConfig} {h : List PacketData}
    {d : HeuristicDetector} {p : PacketData} (hrep : Represents cfg h d)
    (hadm : Admissible cfg (h ++ [p])) :
    (d.evaluatePacket cfg p).2 = referenceDecision h p ↔
      NoStaleSurgeAt cfg.pruneIntervalSeconds h p := by
  have hnext := hrep.observe hadm
  have hburst : ((d.observe cfg p).srcPacketTimes.queue p.srcIp) =
      burstQueue.inWindow (h ++ [p]) p.srcIp p.timestamp := by
    rw [← burstQueue.retained_of_trims hadm.inOrder
      (trims_burstQueue cfg.pruneIntervalSeconds h p)]
    exact hnext.queue burstQueue p.srcIp
  have hports : ((d.observe cfg p).srcRecentDstPorts.queue p.srcIp) =
      portQueue.retained cfg.pruneIntervalSeconds (h ++ [p]) p.srcIp :=
    hnext.queue portQueue p.srcIp
  have hsyns : ((d.observe cfg p).srcSynOnlyTimes.queue p.srcIp) =
      synQueue.retained cfg.pruneIntervalSeconds (h ++ [p]) p.srcIp :=
    hnext.queue synQueue p.srcIp
  have hports_le := countUniquePorts_le_of_sublist
    (portQueue.inWindow_sublist_retained cfg.pruneIntervalSeconds hadm.inOrder p.srcIp)
  have hsyns_le :=
    (synQueue.inWindow_sublist_retained cfg.pruneIntervalSeconds hadm.inOrder p.srcIp).length_le
  rw [HeuristicDetector.evaluatePacket_of_enabled hrep.enabled, referenceDecision, hburst, hports, hsyns,
    assess_eq_iff, NoStaleSurgeAt]
  -- the windows are never larger than what is retained
  exact and_congr ⟨Iff.mp, fun himp => ⟨himp, fun hle => le_trans hle hports_le⟩⟩
    ⟨Iff.mp, fun himp => ⟨himp, fun hle => le_trans hle hsyns_le⟩⟩

/-- On chronological packets from at most `max_tracked_ips` sources, the detector
decides like the reference detector exactly when no packet meets a stale surge. -/
theorem decisions_eq_reference_iff (cfg : HeuristicConfig) (packets : List PacketData)
    (hadm : Admissible cfg packets) :
    (HeuristicDetector.machine cfg).trace {} packets = referenceDecisions packets ↔
      NoStaleSurge cfg.pruneIntervalSeconds packets := by
  rw [referenceDecisions, Machine.trace_eq_alongPrefixes_iff]
  refine forall_congr' fun h => forall_congr' fun p => forall_congr' fun rest => ?_
  refine imp_congr_right fun hsplit => ?_
  have hadm' : Admissible cfg (h ++ [p]) := by
    rw [hsplit, List.append_cons] at hadm
    exact hadm.prefix
  exact decision_eq_reference_iff (represents_exec cfg h hadm'.prefix) hadm'

/-- A port sweep of fifteen ports at time 0, then two ICMP packets: the sweep at
time 5 keeps the fifteen entries, and nothing trims them before time 11/2. -/
def staleSweep : List PacketData :=
  (List.range 15).map (fun i =>
    { srcIp := "10.0.0.1", dstIp := "10.0.0.2", protocol := 17, packetSize := 60, timestamp := 0,
      srcPort := some 5000, dstPort := some (1000 + i) }) ++
  [{ srcIp := "10.0.0.1", dstIp := "10.0.0.2", protocol := 1, packetSize := 60, timestamp := 5 },
   { srcIp := "10.0.0.1", dstIp := "10.0.0.2", protocol := 1, packetSize := 60,
     timestamp := 11 / 2 }]

theorem admissible_staleSweep : Admissible (HeuristicConfig.init none none) staleSweep :=
  ⟨by decide +kernel, by decide +kernel⟩

/-- `decisions_eq_reference_iff` on the stale port sweep, under the default settings. -/
theorem decisions_eq_reference_iff_staleSweep :
    (HeuristicDetector.machine (.init none none)).trace {} staleSweep =
        referenceDecisions staleSweep ↔
      NoStaleSurge (HeuristicConfig.init none none).pruneIntervalSeconds staleSweep :=
  decisions_eq_reference_iff _ _ admissible_staleSweep

/-- Pruning is not transparent: on `staleSweep` the last ICMP packet is still
charged with the port sweep that left its window. -/
theorem pruning_not_transparent :
    ¬ ∀ (cfg : HeuristicConfig) (packets : List PacketData), Admissible cfg packets →
      (HeuristicDetector.machine cfg).trace {} packets = referenceDecisions packets := by
  intro h
  have hne : (HeuristicDetector.machine (.init none none)).trace {} staleSweep ≠
      referenceDecisions staleSweep := by decide +kernel
  exact hne (h _ _ admissible_staleSweep)

end SmartIDS.ThreatDetection
