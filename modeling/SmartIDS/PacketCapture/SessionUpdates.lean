import Mathlib.Logic.Function.Basic
import SmartIDS.PacketCapture.BlockEvents
import SmartIDS.TrafficEngine.Conservation
set_option autoImplicit false

/-!
# PacketCapture: what a reader of the session updates sees

The backend keeps one row a session id and overwrites it with every update.  A
reader who does that, and closes the row at the final update, never sees a session
go backwards or change hands, has open rows of active sessions only, and, adding up
the rows it closed and the sessions still active, accounts for every packet.
-/

namespace SmartIDS.PacketCapture

open SmartIDS.Foundation SmartIDS.Python SmartIDS.ResponseEngine SmartIDS.ThreatDetection
  SmartIDS.TrafficEngine

/-! ## The reader -/

namespace SessionUpdate

/-- The 5-tuple an update is about. -/
def key (u : SessionUpdate) : SessionKey where
  srcIp := u.sourceIp
  dstIp := u.destinationIp
  protocol := u.protocol
  srcPort := u.sourcePort
  dstPort := u.destinationPort

def isFinal (u : SessionUpdate) : Bool := u.state ≠ "active"

end SessionUpdate

/-- The last update of every session that has had no final one. -/
abbrev OpenRows : Type := SessionKey → Option SessionUpdate

/-- The reader. -/
def reader : Machine OpenRows SessionUpdate Unit where
  step rows u := (Function.update rows u.key (if u.isFinal then none else some u), ())

/-- The update is a later one about the session of the open row, if there is one. -/
def Continues (rows : OpenRows) (u : SessionUpdate) : Prop :=
  ∀ v, rows u.key = some v → v.startTime = u.startTime ∧
    if u.isFinal then v.packetCount ≤ u.packetCount else v.packetCount < u.packetCount

/-- The rows after the updates. -/
def rowsAfter (updates : List SessionUpdate) : OpenRows := reader.exec (fun _ => none) updates

/-- The packets and the bytes of the rows that were closed. -/
def closedPackets (updates : List SessionUpdate) : ℕ :=
  ((updates.filter (·.isFinal)).map (·.packetCount)).sum

def closedBytes (updates : List SessionUpdate) : ℤ :=
  ((updates.filter (·.isFinal)).map (·.byteCount)).sum

theorem closedPackets_append (us vs : List SessionUpdate) :
    closedPackets (us ++ vs) = closedPackets us + closedPackets vs := by
  simp [closedPackets]

theorem closedBytes_append (us vs : List SessionUpdate) :
    closedBytes (us ++ vs) = closedBytes us + closedBytes vs := by
  simp [closedBytes]

/-! ## Closing rows -/

/-- Every row still open is one of these. -/
def Within (rows rows' : OpenRows) : Prop := ∀ k v, rows' k = some v → rows k = some v

/-- Final updates close their rows and leave the others alone. -/
theorem reader_final (rows : OpenRows) {us : List SessionUpdate}
    (hfinal : ∀ u ∈ us, u.isFinal = true) :
    Within rows (reader.exec rows us) ∧ ∀ u ∈ us, reader.exec rows us u.key = none := by
  induction us generalizing rows with
  | nil => exact ⟨fun _ _ h => h, fun u hu => absurd hu List.not_mem_nil⟩
  | cons u us ih =>
    obtain ⟨hu, hus⟩ := List.forall_mem_cons.mp hfinal
    have hstep : (reader.step rows u).1 = Function.update rows u.key none := by simp [reader, hu]
    obtain ⟨hwithin, hclosed⟩ := ih (Function.update rows u.key none) hus
    rw [Machine.exec_cons, hstep]
    have hown : reader.exec (Function.update rows u.key none) us u.key = none := by
      cases hrow : reader.exec (Function.update rows u.key none) us u.key with
      | none => rfl
      | some v => simpa using hwithin _ v hrow
    refine ⟨fun k v hv => ?_, List.forall_mem_cons.mpr ⟨hown, hclosed⟩⟩
    have hv' := hwithin k v hv
    rcases eq_or_ne k u.key with rfl | hne
    · simp at hv'
    · rwa [Function.update_of_ne hne] at hv'

/-- Final updates continue the rows, if each does so at the start. -/
theorem continues_final {rows : OpenRows} {us : List SessionUpdate}
    (hfinal : ∀ u ∈ us, u.isFinal = true) (hcontinues : ∀ u ∈ us, Continues rows u) :
    reader.Guarded Continues rows us := by
  rw [Machine.guarded_iff]
  rintro pre u suf rfl v hv
  have hpre := reader_final rows fun w hw => hfinal w (List.mem_append_left _ hw)
  exact hcontinues u (by simp) v (hpre.1 _ v hv)

/-! ## The updates of one packet -/

variable {Φ Ω : Type} {repr : Json → String}

theorem key_buildSessionUpsertPayload (key : SessionKey) (session : TrafficSession)
    (state : String) (prediction : Option Prediction) (decision : HeuristicDecision) :
    (buildSessionUpsertPayload key session state prediction decision).key = session.key := rfl

theorem isFinal_finalUpdate (prediction : Option Prediction) (decision : HeuristicDecision)
    (f : Finalized) : (PacketProcessor.finalUpdate prediction decision f).isFinal = true := by
  obtain ⟨session, sessionKey, reason⟩ := f
  cases reason <;> rfl

/-- The session of every open row is active, and has gone on since. -/
def RowsOf (b : SessionBuilder) (rows : OpenRows) : Prop :=
  ∀ k v, rows k = some v → ∃ s, b.sessions.get? k = some s ∧
    s.startTime = v.startTime ∧ v.packetCount ≤ s.packetCount

/-- What a list of updates does for the reader. -/
structure Reads (rows : OpenRows) (us : List SessionUpdate) (b' : SessionBuilder) : Prop where
  inOrder : reader.Guarded Continues rows us
  rows : RowsOf b' (reader.exec rows us)

section onePacket

variable {b : SessionBuilder} {rows : OpenRows} (a : Arrival Ω) (decision : HeuristicDecision)

/-- The sessions that expire: their rows are closed. -/
theorem reads_expired (hfiled : b.WellFiled) (hown : b.OwnKeys) (hrows : RowsOf b rows)
    (now : Time) :
    Reads rows ((SessionBuilder.sweep now b).1.map fun f =>
      PacketProcessor.finalUpdate (a.expiredPrediction f.sessionKey) decision f)
      (SessionBuilder.sweep now b).2 := by
  have hfinal : ∀ u ∈ (SessionBuilder.sweep now b).1.map (fun f =>
      PacketProcessor.finalUpdate (a.expiredPrediction f.sessionKey) decision f),
      u.isFinal = true := by
    intro u hu
    obtain ⟨f, -, rfl⟩ := List.mem_map.mp hu
    exact isFinal_finalUpdate _ _ f
  have hitem : ∀ f ∈ (SessionBuilder.sweep now b).1,
      b.sessions.get? f.sessionKey = some f.session ∧ f.session.key = f.sessionKey := by
    intro f hf
    obtain ⟨s, hs, hstale⟩ := (hfiled.mem_sweep now f).mp hf
    rw [(SessionBuilder.of_staleFinalized hstale).2]
    exact ⟨hs, hown _ s hs⟩
  constructor
  · refine continues_final hfinal fun u hu v hv => ?_
    rw [if_pos (hfinal u hu)]
    obtain ⟨f, hf, rfl⟩ := List.mem_map.mp hu
    obtain ⟨hs, hkey⟩ := hitem f hf
    have hv' : rows f.session.key = some v := hv
    obtain ⟨s, hs', hstart, hcount⟩ := hrows _ v hv'
    rw [hkey, hs, Option.some.injEq] at hs'
    subst hs'
    exact ⟨hstart.symm, hcount⟩
  · intro k v hv
    obtain ⟨hwithin, hclosed⟩ := reader_final rows hfinal
    obtain ⟨s, hs, hgone⟩ := hrows k v (hwithin k v hv)
    refine ⟨s, ?_, hgone⟩
    rw [SessionBuilder.get?_sweep, hs, Option.filter_eq_some_iff]
    refine ⟨rfl, ?_⟩
    by_contra hstale
    -- a stale session would have had its final update
    obtain ⟨f, hf⟩ := (SessionBuilder.fresh_eq_false_iff now (k, s)).mp
      (Bool.eq_false_iff.mpr hstale)
    obtain ⟨hk, hsession⟩ := SessionBuilder.of_staleFinalized hf
    have hmem : f ∈ (SessionBuilder.sweep now b).1 :=
      (hfiled.mem_sweep now f).mpr ⟨s, by rw [hk]; exact hs, by rw [hk]; exact hf⟩
    have hnone := hclosed _ (List.mem_map_of_mem hmem)
    have hkey : (PacketProcessor.finalUpdate (a.expiredPrediction f.sessionKey) decision f).key =
        k := by
      rw [PacketProcessor.finalUpdate, key_buildSessionUpsertPayload, (hitem f hmem).2, hk]
    rw [hkey, hv] at hnone
    exact absurd hnone (by simp)

/-- The row of the packet's 5-tuple is one of the session the packet goes into. -/
theorem row_of_packet (hrows : RowsOf b rows) {v : SessionUpdate}
    (hv : rows (.fromPacket a.packet) = some v) :
    v.startTime = (SessionBuilder.sessionAfter a.packet b).startTime ∧
      v.packetCount < (SessionBuilder.sessionAfter a.packet b).packetCount := by
  obtain ⟨s, hs, hstart, hcount⟩ := hrows _ v hv
  unfold SessionBuilder.sessionAfter
  rw [hs, Option.getD_some, TrafficSession.startTime_update, TrafficSession.packetCount_update]
  exact ⟨hstart.symm, Nat.lt_succ_of_le hcount⟩

/-- What the reader has for the packet's 5-tuple after the live update, if there is one. -/
structure ReadsLive (rows : OpenRows) (us : List SessionUpdate) (k : SessionKey)
    (session : TrafficSession) : Prop where
  inOrder : reader.Guarded Continues rows us
  own : ∀ v, reader.exec rows us k = some v →
    v.startTime = session.startTime ∧ v.packetCount ≤ session.packetCount
  others : ∀ j, j ≠ k → reader.exec rows us j = rows j

theorem reads_live (hown : b.OwnKeys) (hrows : RowsOf b rows) (predict : Bool) :
    ReadsLive rows (if predict then [buildSessionUpsertPayload (.fromPacket a.packet)
        (SessionBuilder.sessionAfter a.packet b) "active" a.livePrediction decision] else [])
      (.fromPacket a.packet) (SessionBuilder.sessionAfter a.packet b) := by
  cases predict with
  | false =>
    exact ⟨trivial, fun v hv => (row_of_packet a hrows hv).imp_right le_of_lt, fun _ _ => rfl⟩
  | true =>
    have hkey := hown.sessionAfter a.packet
    generalize hu : buildSessionUpsertPayload (.fromPacket a.packet)
      (SessionBuilder.sessionAfter a.packet b) "active" a.livePrediction decision = u
    have hactive : u.isFinal = false := by rw [← hu]; rfl
    have hukey : u.key = .fromPacket a.packet := by rw [← hu, ← hkey]; rfl
    have hrow : u.startTime = (SessionBuilder.sessionAfter a.packet b).startTime ∧
        u.packetCount = (SessionBuilder.sessionAfter a.packet b).packetCount := by
      rw [← hu]
      exact ⟨rfl, rfl⟩
    have hexec : reader.exec rows [u] = Function.update rows (.fromPacket a.packet) (some u) := by
      simp [reader, hactive, hukey]
    rw [if_pos rfl]
    refine ⟨⟨fun v hv => ?_, trivial⟩, fun v hv => ?_, fun j hj => ?_⟩
    · rw [hukey] at hv
      rw [if_neg (by simp [hactive]), hrow.1, hrow.2]
      exact row_of_packet a hrows hv
    · rw [hexec, Function.update_self, Option.some.injEq] at hv
      rw [← hv]
      exact ⟨hrow.1, le_of_eq hrow.2⟩
    · rw [hexec, Function.update_of_ne hj]

/-- Admitting a packet: the live update, and the final one if the packet ends its session. -/
theorem reads_received (hown : b.OwnKeys) (hrows : RowsOf b rows) (predict : Bool) :
    Reads rows ((if predict then [buildSessionUpsertPayload (.fromPacket a.packet)
        (SessionBuilder.sessionAfter a.packet b) "active" a.livePrediction decision] else []) ++
        (SessionBuilder.receive a.packet b).1.flowEnd.toList.map
          (PacketProcessor.finalUpdate a.flowEndPrediction decision))
      (SessionBuilder.receive a.packet b).2 := by
  have hlive := reads_live a decision hown hrows predict
  have hkey := hown.sessionAfter a.packet
  have hadmitted := SessionBuilder.admitted a.packet b
  generalize (if predict then [buildSessionUpsertPayload (.fromPacket a.packet)
        (SessionBuilder.sessionAfter a.packet b) "active" a.livePrediction decision] else []) = us
    at hlive ⊢
  rw [hadmitted.flowEnd]
  cases hfinished : (SessionBuilder.sessionAfter a.packet b).finished with
  | false =>
    have hsessions := hadmitted.sessions
    rw [if_neg (by simp [hfinished])] at hsessions
    simp only [Bool.false_eq_true, if_false, Option.toList_none, List.map_nil, List.append_nil]
    refine ⟨hlive.inOrder, fun k v hv => ?_⟩
    rw [hsessions]
    rcases eq_or_ne k (.fromPacket a.packet) with rfl | hne
    · obtain ⟨hstart, hcount⟩ := hlive.own v hv
      exact ⟨_, Dict.get?_set_self _ _ _, hstart.symm, hcount⟩
    · rw [hlive.others k hne] at hv
      rw [Dict.get?_set_of_ne _ _ hne]
      exact hrows k v hv
  | true =>
    have hsessions := hadmitted.sessions
    rw [if_pos hfinished] at hsessions
    simp only [if_true, Option.toList_some, List.map_cons, List.map_nil]
    generalize hu : PacketProcessor.finalUpdate a.flowEndPrediction decision
      ⟨SessionBuilder.sessionAfter a.packet b, .fromPacket a.packet, .flowEnd⟩ = u
    have hfinal : u.isFinal = true := by rw [← hu]; exact isFinal_finalUpdate _ _ _
    have hukey : u.key = .fromPacket a.packet := by rw [← hu, ← hkey]; rfl
    have hrow : u.startTime = (SessionBuilder.sessionAfter a.packet b).startTime ∧
        u.packetCount = (SessionBuilder.sessionAfter a.packet b).packetCount := by
      rw [← hu]
      exact ⟨rfl, rfl⟩
    constructor
    · rw [Machine.guarded_append]
      refine ⟨hlive.inOrder, fun v hv => ?_, trivial⟩
      rw [hukey] at hv
      rw [if_pos hfinal, hrow.1, hrow.2]
      exact hlive.own v hv
    · intro k v hv
      have hexec : reader.exec rows (us ++ [u]) =
          Function.update (reader.exec rows us) (.fromPacket a.packet) none := by
        rw [Machine.exec_append]
        simp [reader, hfinal, hukey]
      rw [hexec] at hv
      rcases eq_or_ne k (.fromPacket a.packet) with rfl | hne
      · simp at hv
      · rw [Function.update_of_ne hne, hlive.others k hne] at hv
        rw [hsessions, Dict.get?_erase_of_ne _ hne]
        exact hrows k v hv

theorem Reads.append {us vs : List SessionUpdate} {b' b'' : SessionBuilder}
    (h : Reads rows us b') (h' : Reads (reader.exec rows us) vs b'') :
    Reads rows (us ++ vs) b'' :=
  ⟨(Machine.guarded_append _ _ _ _ _).mpr ⟨h.inOrder, h'.inOrder⟩,
    by rw [Machine.exec_append]; exact h'.rows⟩

/-- The updates of one packet. -/
theorem reads_updatesOf (hfiled : b.WellFiled) (hown : b.OwnKeys) (hrows : RowsOf b rows) :
    Reads rows (PacketProcessor.updatesOf a decision (SessionBuilder.perPacket a.packet b).1)
      (SessionBuilder.perPacket a.packet b).2 := by
  have hexpired := reads_expired a decision hfiled hown hrows
    a.packet.timestamp
  have hreceived := reads_received a decision (hown.sweep a.packet.timestamp)
    hexpired.rows (SessionBuilder.receive a.packet
      (SessionBuilder.sweep a.packet.timestamp b).2).1.predict
  have hsession := (SessionBuilder.admitted a.packet
    (SessionBuilder.sweep a.packet.timestamp b).2).session
  have hboth := hexpired.append hreceived
  rw [← hsession, ← List.append_assoc] at hboth
  rw [SessionBuilder.perPacket_eq]
  unfold PacketProcessor.updatesOf
  dsimp only
  exact hboth

/-- Every update carries the id of its own 5-tuple. -/
theorem sessionId_updatesOf (hfiled : b.WellFiled) (hown : b.OwnKeys) {u : SessionUpdate}
    (hu : u ∈ PacketProcessor.updatesOf a decision (SessionBuilder.perPacket a.packet b).1) :
    u.sessionId = sessionKeyStr u.key := by
  have hadmitted := SessionBuilder.admitted a.packet
    (SessionBuilder.sweep a.packet.timestamp b).2
  have hkey := (hown.sweep a.packet.timestamp).sessionAfter a.packet
  rw [SessionBuilder.perPacket_eq, PacketProcessor.updatesOf, List.mem_append, List.mem_append]
    at hu
  rcases hu with (hexpired | hlive) | hended
  · obtain ⟨f, hf, rfl⟩ := List.mem_map.mp hexpired
    obtain ⟨s, hs, hstale⟩ := (hfiled.mem_sweep a.packet.timestamp f).mp hf
    have hsession : f.session.key = f.sessionKey := by
      rw [(SessionBuilder.of_staleFinalized hstale).2]
      exact hown _ s hs
    rw [PacketProcessor.finalUpdate, key_buildSessionUpsertPayload, hsession]
    rfl
  · simp only at hlive
    split_ifs at hlive
    · rw [List.mem_singleton.mp hlive, key_buildSessionUpsertPayload, hadmitted.session, hkey]
      rfl
    · exact absurd hlive List.not_mem_nil
  · obtain ⟨f, hf, rfl⟩ := List.mem_map.mp hended
    simp only [hadmitted.flowEnd] at hf
    split_ifs at hf
    · rw [List.mem_singleton.mp hf, PacketProcessor.finalUpdate, key_buildSessionUpsertPayload,
        hkey]
      rfl
    · exact absurd hf List.not_mem_nil

/-- A field that the final updates copy from their sessions. -/
theorem map_final_updatesOf {M : Type} {field : SessionUpdate → M} {weight : TrafficSession → M}
    (hfield : ∀ prediction f, field (PacketProcessor.finalUpdate prediction decision f) =
      weight f.session) (report : SessionBuilder.PacketReport) :
    ((PacketProcessor.updatesOf a decision report).filter (·.isFinal)).map field =
      report.handedOut.map fun f => weight f.session := by
  have hfinal : ∀ (prediction : Finalized → Option Prediction) (items : List Finalized),
      ((items.map fun f => PacketProcessor.finalUpdate (prediction f) decision f).filter
        (·.isFinal)).map field = items.map fun f => weight f.session := by
    intro prediction items
    induction items with
    | nil => rfl
    | cons f items ih =>
      rw [List.map_cons, List.filter_cons, if_pos (isFinal_finalUpdate _ _ f), List.map_cons, ih,
        List.map_cons, hfield]
  have hlive : (if report.predict then [buildSessionUpsertPayload (.fromPacket a.packet)
      report.session "active" a.livePrediction decision] else []).filter (·.isFinal) = [] := by
    cases report.predict <;> rfl
  unfold PacketProcessor.updatesOf SessionBuilder.PacketReport.handedOut
  rw [List.filter_append, List.filter_append, hlive, List.append_nil, List.map_append,
    List.map_append, hfinal fun f => a.expiredPrediction f.sessionKey,
    hfinal fun _ => a.flowEndPrediction]

theorem closedPackets_updatesOf (report : SessionBuilder.PacketReport) :
    closedPackets (PacketProcessor.updatesOf a decision report) =
      SessionBuilder.weighAll TrafficSession.packetCount report.handedOut :=
  congrArg List.sum (map_final_updatesOf a decision (fun _ _ => rfl) report)

theorem closedBytes_updatesOf (report : SessionBuilder.PacketReport) :
    closedBytes (PacketProcessor.updatesOf a decision report) =
      SessionBuilder.weighAll TrafficSession.totalBytes report.handedOut :=
  congrArg List.sum (map_final_updatesOf a decision (fun _ _ => rfl) report)

end onePacket

/-! ## Runs -/

namespace PacketProcessor

/-- A command leaves the sessions and what is published about them alone. -/
theorem applyBackendCommand_sessions (fw : Option (FirewallAdapter Φ Ω)) (h : Host Ω)
    (command : JsonObject) (p : PacketProcessor Φ repr) :
    (applyBackendCommand fw h command p).2.sessionBuilder = p.sessionBuilder ∧
      (applyBackendCommand fw h command p).2.sessionUpdates = p.sessionUpdates := by
  rcases em (p.Duplicate command) with hdup | hdup
  · rw [p.applyBackendCommand_snd_of_duplicate fw h hdup]
    exact ⟨rfl, rfl⟩
  · cases hduration : BackendCommand.durationSeconds command with
    | error e =>
      rw [p.applyBackendCommand_of_unreadable fw h hduration]
      exact ⟨rfl, rfl⟩
    | ok duration =>
      rcases em (BackendCommand.action repr command = "" ∨
        BackendCommand.ipAddress repr command = "") with hblank | hblank
      · rw [p.applyBackendCommand_of_blank fw h hduration hblank]
        exact ⟨rfl, rfl⟩
      · obtain ⟨haction, hip⟩ := not_or.mp hblank
        rw [p.applyBackendCommand_of_fresh fw h hduration haction hip hdup]
        generalize BackendCommand.commandId repr command = id
        generalize BackendCommand.action repr command = action
        generalize BackendCommand.ipAddress repr command = ip
        cases hcall : blockerCall fw h action ip duration with
        | none =>
          rw [attempt_of_unsupported fw h p id action ip duration hcall]
          exact ⟨rfl, rfl⟩
        | some call =>
          cases hrun : call p.autoBlocker with
          | mk result b =>
            cases result with
            | error e =>
              rw [attempt_of_error fw h p id action ip duration hcall hrun]
              exact ⟨rfl, rfl⟩
            | ok answer =>
              rw [attempt_of_ok fw h p id action ip duration hcall hrun]
              unfold afterCall commit
              split_ifs <;> exact ⟨rfl, rfl⟩

end PacketProcessor

/-- The packets of a run. -/
def packetsOf (calls : List (ProcessorCall Ω)) : List PacketData :=
  calls.filterMap fun call =>
    match call with
    | .process a => some a.packet
    | .applyBackendCommand _ => none

/-- What holds between two calls. -/
structure Followed (seen : List PacketData) (p : PacketProcessor Φ repr) : Prop where
  filed : p.sessionBuilder.WellFiled
  own : p.sessionBuilder.OwnKeys
  reads : Reads (fun _ => none) p.sessionUpdates p.sessionBuilder
  named : ∀ u ∈ p.sessionUpdates, u.sessionId = sessionKeyStr u.key
  packets : closedPackets p.sessionUpdates +
    p.sessionBuilder.weigh TrafficSession.packetCount = seen.length
  bytes : closedBytes p.sessionUpdates + p.sessionBuilder.weigh TrafficSession.totalBytes =
    (seen.map PacketData.packetSize).sum

theorem followed_init (firewall : Φ) (policy : ResponsePolicy)
    (store : ProcessedCommandStore repr) :
    Followed [] (PacketProcessor.init firewall policy store) where
  filed := SessionBuilder.wellFiled_init
  own := SessionBuilder.ownKeys_init
  reads := ⟨trivial, fun _ _ h => by cases h⟩
  named _ h := by cases h
  packets := rfl
  bytes := rfl

theorem Followed.process {seen : List PacketData} {p : PacketProcessor Φ repr}
    (h : Followed seen p) (env : Platform Φ Ω) (a : Arrival Ω) :
    Followed (seen ++ [a.packet]) (p.process env a).2 := by
  obtain ⟨-, -, hbuilder, hupdates, -⟩ := PacketProcessor.processed_snd env a p
  generalize (p.process env a).2 = p' at hbuilder hupdates
  generalize (p.heuristicDetector.evaluatePacket env.heuristic a.packet).2 = decision at hupdates
  constructor
  · rw [hbuilder]
    exact h.filed.perPacket a.packet
  · rw [hbuilder]
    exact h.own.perPacket a.packet
  · rw [hbuilder, hupdates]
    exact h.reads.append (reads_updatesOf _ _ h.filed h.own h.reads.rows)
  · rw [hupdates]
    intro u hu
    rcases List.mem_append.mp hu with hold | hnew
    · exact h.named u hold
    · exact sessionId_updatesOf _ _ h.filed h.own hnew
  · rw [hbuilder, hupdates, closedPackets_append, closedPackets_updatesOf, add_assoc,
      SessionBuilder.additive_packetCount.perPacket a.packet h.filed.drained, ← add_assoc,
      h.packets, List.length_append, List.length_singleton]
  · rw [hbuilder, hupdates, closedBytes_append, closedBytes_updatesOf, add_assoc,
      SessionBuilder.additive_totalBytes.perPacket a.packet h.filed.drained, ← add_assoc,
      h.bytes, List.map_append, List.sum_append, List.map_singleton, List.sum_singleton]

theorem Followed.applyBackendCommand {seen : List PacketData} {p : PacketProcessor Φ repr}
    (h : Followed seen p) (env : Platform Φ Ω) (d : Delivery Ω) :
    Followed seen (p.applyBackendCommand env.firewall d.host d.command).2 := by
  obtain ⟨hbuilder, hupdates⟩ := p.applyBackendCommand_sessions env.firewall d.host d.command
  generalize (p.applyBackendCommand env.firewall d.host d.command).2 = p' at hbuilder hupdates
  obtain ⟨hfiled, hown, hreads, hnamed, hpackets, hbytes⟩ := h
  rw [← hbuilder] at hfiled hown hreads hpackets hbytes
  rw [← hupdates] at hreads hnamed hpackets hbytes
  exact ⟨hfiled, hown, hreads, hnamed, hpackets, hbytes⟩

theorem followed_exec (env : Platform Φ Ω) (firewall : Φ) (policy : ResponsePolicy)
    (store : ProcessedCommandStore repr) (calls : List (ProcessorCall Ω)) :
    Followed (packetsOf calls)
      ((processorCalls env).exec (PacketProcessor.init firewall policy store) calls) := by
  refine @Machine.exec_history _ _ _ (processorCalls env)
    (fun calls p => Followed (packetsOf calls) p) _ (followed_init firewall policy store) ?_ calls
  intro calls call p h
  unfold packetsOf
  rw [List.filterMap_append]
  cases call with
  | process a => exact h.process env a
  | applyBackendCommand d =>
    rw [show List.filterMap _ [ProcessorCall.applyBackendCommand d] = [] from rfl, List.append_nil]
    exact h.applyBackendCommand env d

/-- What a reader of the session updates may rely on, in every run of packets and
commands: every update continues the open row of its session or opens a new one, and
names the 5-tuple it is about; an open row is one of an active session; and the rows
that were closed and the active sessions add up to the packets and bytes processed. -/
theorem session_updates_add_up (env : Platform Φ Ω) (firewall : Φ) (policy : ResponsePolicy)
    (store : ProcessedCommandStore repr) (calls : List (ProcessorCall Ω)) :
    let p := (processorCalls env).exec (PacketProcessor.init firewall policy store) calls
    reader.Guarded Continues (fun _ => none) p.sessionUpdates ∧
      (∀ u ∈ p.sessionUpdates, u.sessionId = sessionKeyStr u.key) ∧
      RowsOf p.sessionBuilder (rowsAfter p.sessionUpdates) ∧
      closedPackets p.sessionUpdates + p.sessionBuilder.weigh TrafficSession.packetCount =
        (packetsOf calls).length ∧
      closedBytes p.sessionUpdates + p.sessionBuilder.weigh TrafficSession.totalBytes =
        ((packetsOf calls).map PacketData.packetSize).sum := by
  have h := followed_exec env firewall policy store calls
  exact ⟨h.reads.inOrder, h.named, h.reads.rows, h.packets, h.bytes⟩

end SmartIDS.PacketCapture
