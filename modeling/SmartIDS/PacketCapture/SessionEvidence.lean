import SmartIDS.PacketCapture.ProcessSpec
import SmartIDS.ThreatDetection.SourceIsolation
import SmartIDS.TrafficEngine.WellFiled
set_option autoImplicit false

/-!
# PacketCapture: whose evidence a session is charged with

A session update carries the decision about the packet that is being processed.
For the session of that packet this is evidence of its own source; for a session
the packet expires it is whatever happened to arrive.  Two runs that agree on the
packets of a source publish the same evidence for its sessions exactly as long as
no packet of another source expires one of them.
-/

namespace SmartIDS.PacketCapture

open SmartIDS.Foundation SmartIDS.Python SmartIDS.ResponseEngine SmartIDS.ThreatDetection
  SmartIDS.TrafficEngine

variable {Φ Ω : Type} {repr : Json → String}

/-- What a session update says of the packets' suspiciousness. -/
structure Evidence where
  sessionId : String
  heuristicResult : String
  riskScore : ℚ
  deriving DecidableEq

/-- The evidence published for the sessions of a source. -/
def evidence (source : String) (updates : List SessionUpdate) : List Evidence :=
  (updates.filter fun u => u.sourceIp = source).map fun u =>
    ⟨u.sessionId, u.heuristicResult, u.riskScore⟩

/-- `process` along a run; the output are the session updates of the call. -/
def publishing (env : Platform Φ Ω) :
    Machine (PacketProcessor Φ repr) (Arrival Ω) (List SessionUpdate) where
  step p a :=
    ((p.process env a).2, (p.process env a).2.sessionUpdates.drop p.sessionUpdates.length)

/-- The evidence published for the sessions of a source, call by call. -/
def publishedEvidence (env : Platform Φ Ω) (source : String) (p : PacketProcessor Φ repr)
    (as : List (Arrival Ω)) : List (List Evidence) :=
  ((publishing env).trace p as).map (evidence source)

/-- Two arrivals at the same time that agree on what belongs to a source: its packets
and the models' answers about its sessions. -/
structure SameFor (source : String) (a a' : Arrival Ω) : Prop where
  timestamp : a'.packet.timestamp = a.packet.timestamp
  own : a.packet.srcIp = source ∨ a'.packet.srcIp = source →
    a'.packet = a.packet ∧ a'.livePrediction = a.livePrediction ∧
      a'.flowEndPrediction = a.flowEndPrediction
  expired : ∀ k : SessionKey, k.srcIp = source → a'.expiredPrediction k = a.expiredPrediction k

/-- There is room in the detector for every source of a run. -/
def FewSources (env : Platform Φ Ω) (as : List (Arrival Ω)) : Prop :=
  (sources (as.map (·.packet))).length ≤ env.heuristic.maxTrackedIps

/-- The packet is of the source, or expires none of its sessions. -/
def NoForeignExpiry (source : String) (p : PacketProcessor Φ repr) (a : Arrival Ω) : Prop :=
  a.packet.srcIp = source ∨
    ∀ k ∈ SessionBuilder.staleKeys a.packet.timestamp p.sessionBuilder, k.srcIp ≠ source

theorem publishing_step (env : Platform Φ Ω) (p : PacketProcessor Φ repr) (a : Arrival Ω) :
    (publishing env).step p a = ((p.process env a).2,
      PacketProcessor.updatesOf a (p.heuristicDetector.evaluatePacket env.heuristic a.packet).2
        (SessionBuilder.perPacket a.packet p.sessionBuilder).1) := by
  have hprocessed := PacketProcessor.processed_snd env a p
  unfold publishing
  simp only
  rw [hprocessed.sessionUpdates, List.drop_left]

/-! ## The updates of one packet -/

/-- The sessions of a source. -/
def ofSource (source : String) : SessionKey → Bool := fun k => k.srcIp = source

section

variable {source : String} {a : Arrival Ω} {decision : HeuristicDecision} {b b' : SessionBuilder}
  {report : SessionBuilder.PacketReport}

theorem filter_expired (hreported : SessionBuilder.Reported a.packet b report b') :
    (report.expired.map fun f =>
        PacketProcessor.finalUpdate (a.expiredPrediction f.sessionKey) decision f).filter
      (fun u => u.sourceIp = source) =
    (report.expired.filter fun f => ofSource source f.sessionKey).map fun f =>
      PacketProcessor.finalUpdate (a.expiredPrediction f.sessionKey) decision f := by
  rw [List.filter_map]
  congr 1
  apply List.filter_congr
  intro f hf
  have hsrcIp := (hreported.expired f hf).2
  show decide (f.session.srcIp = source) = decide (f.sessionKey.srcIp = source)
  rw [hsrcIp]

/-- A packet of the source: all updates but those of other expired sessions. -/
theorem filter_updatesOf_own (hreported : SessionBuilder.Reported a.packet b report b')
    (hown : a.packet.srcIp = source) :
    (PacketProcessor.updatesOf a decision report).filter (fun u => u.sourceIp = source) =
      PacketProcessor.updatesOf a decision
        { report with expired := report.expired.filter fun f => ofSource source f.sessionKey } := by
  unfold PacketProcessor.updatesOf
  rw [List.filter_append, List.filter_append, filter_expired hreported]
  have hsrcIp : report.session.srcIp = source := hreported.srcIp.trans hown
  congr 1
  · congr 1
    cases report.predict with
    | true => simp [buildSessionUpsertPayload, hsrcIp]
    | false => rfl
  · rw [hreported.flowEnd]
    cases a.packet.endsFlow with
    | true => simp [PacketProcessor.finalUpdate, buildSessionUpsertPayload, hsrcIp]
    | false => rfl

/-- The updates depend on the arrival through its packet and the models' answers. -/
theorem updatesOf_congr {a' : Arrival Ω} (hpacket : a'.packet = a.packet)
    (hlive : a'.livePrediction = a.livePrediction)
    (hflowEnd : a'.flowEndPrediction = a.flowEndPrediction)
    (hexpired : ∀ f ∈ report.expired,
      a'.expiredPrediction f.sessionKey = a.expiredPrediction f.sessionKey) :
    PacketProcessor.updatesOf a' decision report = PacketProcessor.updatesOf a decision report := by
  unfold PacketProcessor.updatesOf
  rw [hpacket, hlive, hflowEnd]
  congr 2
  apply List.map_congr_left
  intro f hf
  rw [hexpired f hf]

/-- A packet of another source: the sessions it expires, and nothing else. -/
theorem filter_updatesOf_foreign (hreported : SessionBuilder.Reported a.packet b report b')
    (hforeign : a.packet.srcIp ≠ source) :
    (PacketProcessor.updatesOf a decision report).filter (fun u => u.sourceIp = source) =
      (report.expired.filter fun f => ofSource source f.sessionKey).map fun f =>
        PacketProcessor.finalUpdate (a.expiredPrediction f.sessionKey) decision f := by
  unfold PacketProcessor.updatesOf
  rw [List.filter_append, List.filter_append, filter_expired hreported]
  have hsrcIp : report.session.srcIp ≠ source := fun heq => hforeign (hreported.srcIp ▸ heq)
  have hlive : (if report.predict = true then
      [buildSessionUpsertPayload (.fromPacket a.packet) report.session "active" a.livePrediction
        decision] else []).filter (fun u => u.sourceIp = source) = [] := by
    cases report.predict with
    | true => simp [buildSessionUpsertPayload, hsrcIp]
    | false => rfl
  have hflowEnd : (report.flowEnd.toList.map
      (PacketProcessor.finalUpdate a.flowEndPrediction decision)).filter
        (fun u => u.sourceIp = source) = [] := by
    rw [hreported.flowEnd]
    cases a.packet.endsFlow with
    | true => simp [PacketProcessor.finalUpdate, buildSessionUpsertPayload, hsrcIp]
    | false => rfl
  rw [hlive, hflowEnd, List.append_nil, List.append_nil]

end

/-! ## Two runs that agree on a source -/

/-- One run: sessions filed under their sources, and room in the detector. -/
structure Running (env : Platform Φ Ω) (ips : List String) (p : PacketProcessor Φ repr) : Prop where
  filed : p.sessionBuilder.WellFiled
  roomy : Roomy env.heuristic ips p.heuristicDetector

theorem Running.step {env : Platform Φ Ω} {ips : List String} {p : PacketProcessor Φ repr}
    {a : Arrival Ω} (h : Running env ips p) (hsource : a.packet.srcIp ∈ ips) :
    Running env ips ((publishing env).step p a).1 := by
  have hprocessed := PacketProcessor.processed_snd env a p
  rw [publishing_step]
  constructor
  · rw [hprocessed.sessionBuilder]
    exact h.filed.perPacket a.packet
  · rw [hprocessed.heuristicDetector, h.roomy.fst_evaluatePacket]
    exact h.roomy.observe hsource

/-- The two processors hold the same about a source. -/
structure Agree (env : Platform Φ Ω) (source : String) (ips ips' : List String)
    (p p' : PacketProcessor Φ repr) : Prop where
  left : Running env ips p
  right : Running env ips' p'
  sessions : p'.sessionBuilder.restrict (ofSource source) =
    p.sessionBuilder.restrict (ofSource source)
  view : SameView source p.heuristicDetector p'.heuristicDetector

section

variable {env : Platform Φ Ω} {source : String} {ips ips' : List String}
  {p p' : PacketProcessor Φ repr} {a a' : Arrival Ω}

/-- A packet of the source. -/
theorem Agree.own (h : Agree env source ips ips' p p') (hsame : SameFor source a a')
    (hown : a.packet.srcIp = source) (hsource : a.packet.srcIp ∈ ips)
    (hsource' : a'.packet.srcIp ∈ ips') :
    Agree env source ips ips' ((publishing env).step p a).1 ((publishing env).step p' a').1 ∧
      evidence source ((publishing env).step p' a').2 =
        evidence source ((publishing env).step p a).2 := by
  obtain ⟨hpacket, hlive, hflowEnd⟩ := hsame.own (Or.inl hown)
  have hq : ofSource source (.fromPacket a.packet) = true := decide_eq_true hown
  have hleft := SessionBuilder.perPacket_restrict (p := a.packet) p.sessionBuilder hq
  have hright := SessionBuilder.perPacket_restrict (p := a.packet) p'.sessionBuilder hq
  rw [h.sessions, hleft, Prod.mk.injEq] at hright
  obtain ⟨hreport, hsessions⟩ := hright
  have hview := h.view
  rw [← hown] at hview
  rw [hpacket] at hsource'
  obtain ⟨hnext, hdecision⟩ := hview.own h.left.roomy h.right.roomy hsource hsource'
  rw [hown] at hnext
  constructor
  · refine ⟨h.left.step hsource, h.right.step (by rw [hpacket]; exact hsource'), ?_, ?_⟩
    · rw [publishing_step, publishing_step,
        (PacketProcessor.processed_snd env a' p').sessionBuilder,
        (PacketProcessor.processed_snd env a p).sessionBuilder, hpacket]
      exact hsessions.symm
    · rw [publishing_step, publishing_step,
        (PacketProcessor.processed_snd env a' p').heuristicDetector,
        (PacketProcessor.processed_snd env a p).heuristicDetector, hpacket,
        h.left.roomy.fst_evaluatePacket, h.right.roomy.fst_evaluatePacket]
      exact hnext
  · have hreported := h.left.filed.reported a.packet
    have hreported' := h.right.filed.reported a'.packet
    have hown' : a'.packet.srcIp = source := by rw [hpacket]; exact hown
    rw [publishing_step, publishing_step]
    unfold evidence
    rw [filter_updatesOf_own hreported hown, filter_updatesOf_own hreported' hown', hpacket,
      hdecision, ← hreport]
    -- the expired sessions are those of the source, on which the models agree
    refine congrArg _ (updatesOf_congr hpacket hlive hflowEnd fun f hf => ?_)
    simp only [List.mem_filter] at hf
    have hsourceOf : f.sessionKey.srcIp = source := of_decide_eq_true hf.2
    exact hsame.expired f.sessionKey hsourceOf

/-- No session of the source is stale, so none is handed out. -/
theorem filter_expired_eq_nil (h : Running env ips p)
    (hstale : ∀ k ∈ SessionBuilder.staleKeys a.packet.timestamp p.sessionBuilder,
      k.srcIp ≠ source) :
    (SessionBuilder.perPacket a.packet p.sessionBuilder).1.expired.filter
      (fun f => ofSource source f.sessionKey) = [] := by
  rw [List.filter_eq_nil_iff]
  intro f hf hq
  exact hstale _ ((h.filed.reported a.packet).expired f hf).1 (of_decide_eq_true hq)

/-- Two packets of other sources, the first of which expires no session of this
one. -/
theorem Agree.foreign (h : Agree env source ips ips' p p') (hsame : SameFor source a a')
    (hforeign : a.packet.srcIp ≠ source) (hsource : a.packet.srcIp ∈ ips)
    (hsource' : a'.packet.srcIp ∈ ips')
    (hstale : ∀ k ∈ SessionBuilder.staleKeys a.packet.timestamp p.sessionBuilder,
      k.srcIp ≠ source) :
    Agree env source ips ips' ((publishing env).step p a).1 ((publishing env).step p' a').1 ∧
      evidence source ((publishing env).step p' a').2 =
        evidence source ((publishing env).step p a).2 := by
  have hforeign' : a'.packet.srcIp ≠ source := by
    intro heq
    rw [(hsame.own (Or.inr heq)).1] at heq
    exact hforeign heq
  have hq : ofSource source (.fromPacket a.packet) = false := decide_eq_false hforeign
  have hq' : ofSource source (.fromPacket a'.packet) = false := decide_eq_false hforeign'
  have hleft := SessionBuilder.perPacket_restrict_of_neg p.sessionBuilder hq
  have hright := SessionBuilder.perPacket_restrict_of_neg p'.sessionBuilder hq'
  rw [h.sessions, hsame.timestamp, hleft, Prod.mk.injEq] at hright
  obtain ⟨hexpired, hsessions⟩ := hright
  constructor
  · refine ⟨h.left.step hsource, h.right.step hsource', ?_, ?_⟩
    · rw [publishing_step, publishing_step,
        (PacketProcessor.processed_snd env a' p').sessionBuilder,
        (PacketProcessor.processed_snd env a p).sessionBuilder]
      exact hsessions.symm
    · rw [publishing_step, publishing_step,
        (PacketProcessor.processed_snd env a' p').heuristicDetector,
        (PacketProcessor.processed_snd env a p).heuristicDetector,
        h.left.roomy.fst_evaluatePacket, h.right.roomy.fst_evaluatePacket]
      exact h.view.foreign h.left.roomy h.right.roomy hsource hsource' hsame.timestamp hforeign
        hforeign'
  · rw [publishing_step, publishing_step]
    unfold evidence
    rw [filter_updatesOf_foreign (h.left.filed.reported a.packet) hforeign,
      filter_updatesOf_foreign (h.right.filed.reported a'.packet) hforeign', ← hexpired,
      filter_expired_eq_nil h.left hstale]
    rfl

/-- The step lemma of the two runs. -/
theorem Agree.step (h : Agree env source ips ips' p p') (hsame : SameFor source a a')
    (hsource : a.packet.srcIp ∈ ips) (hsource' : a'.packet.srcIp ∈ ips')
    (hguard : NoForeignExpiry source p a) :
    Agree env source ips ips' ((publishing env).step p a).1 ((publishing env).step p' a').1 ∧
      evidence source ((publishing env).step p' a').2 =
        evidence source ((publishing env).step p a).2 := by
  rcases eq_or_ne a.packet.srcIp source with hown | hforeign
  · exact h.own hsame hown hsource hsource'
  · obtain hown | hstale := hguard
    · exact absurd hown hforeign
    · exact h.foreign hsame hforeign hsource hsource' hstale

end

/-! ## A foreign packet that expires a session -/

/-- Every update of a call carries the same summary. -/
theorem heuristicResult_of_mem_evidence {source : String} {a : Arrival Ω}
    {decision : HeuristicDecision} {report : SessionBuilder.PacketReport} {e : Evidence}
    (he : e ∈ evidence source (PacketProcessor.updatesOf a decision report)) :
    e.heuristicResult = heuristicSummary decision := by
  obtain ⟨u, hu, rfl⟩ := List.mem_map.mp he
  have hmem := (List.mem_filter.mp hu).1
  unfold PacketProcessor.updatesOf at hmem
  rw [List.mem_append, List.mem_append] at hmem
  obtain (hexpired | hlive) | hflowEnd := hmem
  · obtain ⟨f, -, rfl⟩ := List.mem_map.mp hexpired
    rfl
  · split_ifs at hlive
    · rw [List.mem_singleton.mp hlive]
      rfl
    · exact absurd hlive List.not_mem_nil
  · obtain ⟨f, -, rfl⟩ := List.mem_map.mp hflowEnd
    rfl

/-- The arrival with its packet resized. -/
def Arrival.resize (a : Arrival Ω) : Arrival Ω := { a with packet := resized a.packet }

theorem SameFor.refl (source : String) (a : Arrival Ω) : SameFor source a a :=
  ⟨rfl, fun _ => ⟨rfl, rfl, rfl⟩, fun _ _ => rfl⟩

theorem SameFor.resize {source : String} {a : Arrival Ω} (hforeign : a.packet.srcIp ≠ source) :
    SameFor source a a.resize :=
  ⟨rfl, fun hown => absurd (or_self_iff.mp hown) hforeign, fun _ _ => rfl⟩

/-- The session of the source is charged with the size of the foreign packet. -/
theorem evidence_resize_ne {env : Platform Φ Ω} {source : String} {ips : List String}
    {p : PacketProcessor Φ repr} {a : Arrival Ω} (h : Running env ips p) {k : SessionKey}
    (hk : k ∈ SessionBuilder.staleKeys a.packet.timestamp p.sessionBuilder)
    (hsource : k.srcIp = source) :
    evidence source ((publishing env).step p a.resize).2 ≠
      evidence source ((publishing env).step p a).2 := by
  intro heq
  have hreported := h.filed.reported a.packet
  obtain ⟨f, hf, rfl⟩ := hreported.stale k hk
  rw [publishing_step, publishing_step] at heq
  have hmem : PacketProcessor.finalUpdate (a.expiredPrediction f.sessionKey)
      (p.heuristicDetector.evaluatePacket env.heuristic a.packet).2 f ∈
      (PacketProcessor.updatesOf a (p.heuristicDetector.evaluatePacket env.heuristic a.packet).2
        (SessionBuilder.perPacket a.packet p.sessionBuilder).1).filter
          fun u => u.sourceIp = source := by
    refine List.mem_filter.mpr ⟨?_, decide_eq_true ?_⟩
    · exact List.mem_append_left _ (List.mem_append_left _ (List.mem_map_of_mem hf))
    · exact (hreported.expired f hf).2.trans hsource
  have he : ∃ e, e ∈ evidence source (PacketProcessor.updatesOf a
      (p.heuristicDetector.evaluatePacket env.heuristic a.packet).2
      (SessionBuilder.perPacket a.packet p.sessionBuilder).1) := ⟨_, List.mem_map_of_mem hmem⟩
  obtain ⟨e, he⟩ := he
  have hresult := heuristicResult_of_mem_evidence he
  rw [← heq] at he
  have hresult' := heuristicResult_of_mem_evidence he
  exact score_evaluatePacket_resized h.roomy
    (score_of_heuristicSummary (hresult'.symm.trans hresult))

/-! ## Every run -/

theorem mem_sources {as : List (Arrival Ω)} {a : Arrival Ω} (ha : a ∈ as) :
    a.packet.srcIp ∈ sources (as.map (·.packet)) := by
  rw [sources, List.mem_dedup, List.map_map]
  exact List.mem_map_of_mem ha

section

variable {env : Platform Φ Ω} {source : String} (firewall : Φ) (policy : ResponsePolicy)
  (store : ProcessedCommandStore repr) {as as' : List (Arrival Ω)}

theorem running_init (hfew : FewSources env as) :
    Running env (sources (as.map (·.packet))) (PacketProcessor.init firewall policy store) :=
  ⟨SessionBuilder.wellFiled_init, roomy_init hfew⟩

/-- A run from the start keeps what one packet keeps. -/
theorem running_exec (hfew : FewSources env as) {pre suf : List (Arrival Ω)}
    (hsplit : as = pre ++ suf) :
    Running env (sources (as.map (·.packet)))
      ((publishing env).exec (PacketProcessor.init firewall policy store) pre) := by
  have hinit := running_init firewall policy store hfew
  have hsources : ∀ a ∈ pre, a.packet.srcIp ∈ sources (as.map (·.packet)) := fun a ha =>
    mem_sources (hsplit ▸ List.mem_append_left _ ha)
  generalize sources (as.map (·.packet)) = ips at hinit hsources
  generalize PacketProcessor.init firewall policy store = p at hinit
  clear hsplit
  induction pre generalizing p with
  | nil => exact hinit
  | cons a pre ih =>
    obtain ⟨ha, hpre⟩ := List.forall_mem_cons.mp hsources
    exact ih hpre _ (hinit.step ha)

theorem publishedEvidence_of_guarded (hfew : FewSources env as) (hfew' : FewSources env as')
    (hsame : List.Forall₂ (SameFor source) as as')
    (hguard : (publishing env).Guarded (NoForeignExpiry source)
      (PacketProcessor.init firewall policy store) as) :
    publishedEvidence env source (PacketProcessor.init firewall policy store) as' =
      publishedEvidence env source (PacketProcessor.init firewall policy store) as := by
  have hinputs : List.Forall₂ (fun a a' => SameFor source a a' ∧
      a.packet.srcIp ∈ sources (as.map (·.packet)) ∧
      a'.packet.srcIp ∈ sources (as'.map (·.packet))) as as' := by
    have hleft := (List.forall₂_and_left as as').mpr ⟨fun a ha => mem_sources ha, hsame⟩
    have hboth := (List.forall₂_and_left as' as).mpr ⟨fun a ha => mem_sources ha, hleft.flip⟩
    exact hboth.flip.imp fun a a' ⟨hsource', hsource, hsame⟩ => ⟨hsame, hsource, hsource'⟩
  have hinit : Agree env source (sources (as.map (·.packet))) (sources (as'.map (·.packet)))
      (PacketProcessor.init firewall policy store) (PacketProcessor.init firewall policy store) :=
    ⟨running_init firewall policy store hfew, running_init firewall policy store hfew', rfl, .refl _ _⟩
  have htraces := Machine.trace_related (publishing env) (publishing env)
    (O := fun updates updates' => evidence source updates' = evidence source updates)
    (fun p p' a a' h hQ hG => h.step hQ.1 hQ.2.1 hQ.2.2 hG) hinit hinputs hguard
  unfold publishedEvidence
  rw [← List.forall₂_eq_eq_eq, List.forall₂_map_left_iff, List.forall₂_map_right_iff]
  exact htraces.flip

/-- The published evidence of the source is the same in all runs that agree on it
exactly as long as no packet of another source expires one of its sessions. -/
theorem evidence_own_iff (hfew : FewSources env as) :
    (∀ as', List.Forall₂ (SameFor source) as as' → FewSources env as' →
      publishedEvidence env source (PacketProcessor.init firewall policy store) as' =
        publishedEvidence env source (PacketProcessor.init firewall policy store) as) ↔
      (publishing env).Guarded (NoForeignExpiry source)
        (PacketProcessor.init firewall policy store) as := by
  refine ⟨fun hall => ?_, fun hguard as' hsame hfew' =>
    publishedEvidence_of_guarded firewall policy store hfew hfew' hsame hguard⟩
  rw [Machine.guarded_iff]
  intro pre a suf hsplit
  by_contra hexpires
  obtain ⟨hforeign, hstale⟩ := not_or.mp hexpires
  push Not at hstale
  obtain ⟨k, hk, hsource⟩ := hstale
  have hrunning := running_exec firewall policy store hfew hsplit
  -- the same run with the foreign packet resized
  have hsame : List.Forall₂ (SameFor source) as (pre ++ a.resize :: suf) := by
    rw [hsplit]
    exact List.rel_append (List.forall₂_same.mpr fun _ _ => .refl _ _)
      (.cons (.resize hforeign) (List.forall₂_same.mpr fun _ _ => .refl _ _))
  have hsources : sources ((pre ++ a.resize :: suf).map (·.packet)) =
      sources (as.map (·.packet)) := by
    rw [hsplit]
    simp only [sources, List.map_append, List.map_cons, List.map_map]
    rfl
  have hfew' : FewSources env (pre ++ a.resize :: suf) := by
    unfold FewSources
    rw [hsources]
    exact hfew
  have hequal := hall _ hsame hfew'
  unfold publishedEvidence at hequal
  rw [hsplit, Machine.trace_append, Machine.trace_append, List.map_append, List.map_append,
    List.append_cancel_left_eq, Machine.trace_cons, Machine.trace_cons, List.map_cons,
    List.map_cons, List.cons.injEq] at hequal
  exact evidence_resize_ne hrunning hk hsource hequal.1

end

/-- A packet of 10.0.0.1, and half a minute later one of 10.0.0.2 that expires its
session. -/
def expiredByStranger (packetSize : ℤ) : List (Arrival Unit) :=
  [.plain (.frozen 1700000000 () lt_maxSeconds_1700000000)
      { srcIp := "10.0.0.1", dstIp := "10.0.0.9", protocol := 17, packetSize := 80, timestamp := 0,
        srcPort := some 5000, dstPort := some 5001 },
    .plain (.frozen 1700000030 () (by decide))
      { srcIp := "10.0.0.2", dstIp := "10.0.0.9", protocol := 17, packetSize := packetSize,
        timestamp := 30, srcPort := some 5000, dstPort := some 5001 }]

/-- A processor without a firewall. -/
def quietProcessor : PacketProcessor Unit fun _ => "" :=
  .init () (.init 90 25) (.empty 1 Nat.one_pos)

/-- `evidence_own_iff` on the expired session. -/
theorem evidence_own_iff_expired :
    (∀ as', List.Forall₂ (SameFor "10.0.0.1") (expiredByStranger 80) as' →
      FewSources Platform.bare as' →
      publishedEvidence Platform.bare "10.0.0.1" quietProcessor as' =
        publishedEvidence Platform.bare "10.0.0.1" quietProcessor (expiredByStranger 80)) ↔
      (publishing Platform.bare).Guarded (NoForeignExpiry "10.0.0.1") quietProcessor
        (expiredByStranger 80) :=
  evidence_own_iff () (.init 90 25) (.empty 1 Nat.one_pos)
    (show FewSources Platform.bare (expiredByStranger 80) by unfold FewSources; decide +kernel)

/-- The session of 10.0.0.1 is charged with the tiny packet of 10.0.0.2. -/
theorem charged_with_stranger :
    ¬ ∀ (source : String) (as as' : List (Arrival Unit)), List.Forall₂ (SameFor source) as as' →
      FewSources Platform.bare as → FewSources Platform.bare as' →
      publishedEvidence Platform.bare source quietProcessor as' =
        publishedEvidence Platform.bare source quietProcessor as := by
  intro h
  have hsame : List.Forall₂ (SameFor "10.0.0.1") (expiredByStranger 80) (expiredByStranger 30) :=
    .cons (.refl _ _) (.cons ⟨rfl, fun hown => absurd hown (by decide), fun _ _ => rfl⟩ .nil)
  have hne : publishedEvidence Platform.bare "10.0.0.1" quietProcessor (expiredByStranger 30) ≠
      publishedEvidence Platform.bare "10.0.0.1" quietProcessor (expiredByStranger 80) := by
    decide +kernel
  exact hne (h _ _ _ hsame (by unfold FewSources; decide +kernel)
    (by unfold FewSources; decide +kernel))

end SmartIDS.PacketCapture
