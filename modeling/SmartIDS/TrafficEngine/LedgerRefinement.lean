import SmartIDS.TrafficEngine.BuilderSpec
import SmartIDS.TrafficEngine.SessionLedger
set_option autoImplicit false

/-!
# TrafficEngine: the session builder refines the ledger

The builder keeps aggregates where the ledger keeps the packets themselves: each
of its sessions is the one that the packets of the ledger's session build up, and
what it hands out is what the ledger closes, in the same order.
-/

namespace SmartIDS.TrafficEngine

open SmartIDS.Foundation SmartIDS.PacketCapture

/-- A session of the builder holds the aggregates of these packets. -/
def Aggregates (s : TrafficSession) (ms : List Arrival) : Prop :=
  TrafficSession.recorded (packets ms) = some s

/-- A session was handed out for a session the ledger closed. -/
structure HandedOutFor (f : Finalized) (c : ClosedSession) : Prop where
  key : f.sessionKey = c.key
  reason : f.reason = c.reason
  session : Aggregates f.session c.members

namespace SessionBuilder

/-- The builder represents the ledger between two packets. -/
structure Represents (b : SessionBuilder) (l : Ledger) : Prop where
  sessions : Dict.Related Aggregates b.sessions l.active
  sameKeys : SameKeys b
  pending : b.pendingFinalizations = []

theorem represents_init : Represents init .init where
  sessions := .nil
  sameKeys := fun _ => Iff.rfl
  pending := rfl

/-! ## Expiry -/

/-- A session is stale when its packets say so. -/
theorem staleMembers_of_aggregates {s : TrafficSession} {ms : List Arrival}
    (h : Aggregates s ms) (now : Time) :
    Ledger.staleMembers now ms = staleReason now s.startTime s.lastSeen := by
  have hdesc := TrafficSession.recorded_describes h
  have hfirst := hdesc.startTime
  have hlast := hdesc.lastSeen
  rw [packets, List.head?_map] at hfirst
  rw [packets, List.getLast?_map] at hlast
  unfold Ledger.staleMembers
  cases hhead : ms.head? with
  | none => simp [hhead] at hfirst
  | some first =>
    cases hend : ms.getLast? with
    | none => simp [hend] at hlast
    | some last =>
      rw [hhead] at hfirst
      rw [hend] at hlast
      simp only [Option.map_some, Option.some.injEq] at hfirst hlast
      simp only [hfirst, hlast]

theorem Represents.sweep {b : SessionBuilder} {l : Ledger} (h : Represents b l) (now : Time) :
    Represents (sweep now b).2 (l.expire now) ∧
      List.Forall₂ HandedOutFor (SessionBuilder.sweep now b).1 (l.expired now) := by
  constructor
  · constructor
    · show Dict.Related Aggregates (expireStaleSessions now b).sessions _
      rw [sessions_expireStaleSessions]
      apply h.sessions.filter
      intro k s ms hs
      rw [fresh, staleMembers_of_aggregates hs]
    · exact h.sameKeys.sweep now
    · rfl
  · have hout : (SessionBuilder.sweep now b).1 =
        b.sessions.entries.filterMap (staleFinalized now) := by
      show (expireStaleSessions now b).pendingFinalizations = _
      rw [pending_expireStaleSessions, h.pending, List.nil_append]
    rw [hout]
    apply List.rel_filterMap _ h.sessions
    rintro ⟨k, s⟩ ⟨k', ms⟩ ⟨hk, hs⟩
    obtain rfl : k = k' := hk
    simp only [staleFinalized, staleMembers_of_aggregates hs]
    cases staleReason now s.startTime s.lastSeen with
    | none => exact .none
    | some reason => exact .some ⟨rfl, rfl, hs⟩

/-! ## Admission -/

/-- The session of a packet aggregates the packets the ledger files with it. -/
theorem Represents.sessionAfter {b : SessionBuilder} {l : Ledger} (h : Represents b l)
    (p : PacketData) : Aggregates (sessionAfter p b) (l.extended p) := by
  unfold SessionBuilder.sessionAfter Ledger.extended Aggregates
  cases hget : b.sessions.get? (SessionKey.fromPacket p) with
  | none =>
    rw [h.sessions.get?_eq_none hget]
    rfl
  | some s =>
    obtain ⟨ms, hms, hs⟩ := h.sessions.get? hget
    rw [hms]
    show TrafficSession.recorded (List.map Prod.fst (ms ++ [(p, l.arrived)])) = _
    rw [List.map_append]
    exact TrafficSession.recorded_concat p hs

/-- It is finished exactly when this packet ends it: no earlier one did. -/
theorem Represents.finished {ps : List PacketData} {b : SessionBuilder} {l : Ledger}
    (h : Represents b l) (hvalid : l.Valid ps) (p : PacketData) :
    (SessionBuilder.sessionAfter p b).finished = p.endsFlow := by
  have hany := (TrafficSession.recorded_describes (h.sessionAfter p)).finished
  rw [hany]
  rcases l.extended_cases p with ⟨-, hext⟩ | ⟨ms, hms, hext⟩
  · simp [hext, packets]
  · have hopen := hvalid.activeOpen _ ((Dict.get?_eq_some_iff _ _ _).mp hms)
    have hnone : (packets ms).any (·.endsFlow) = false := by
      rw [List.any_eq_false]
      intro q hq
      obtain ⟨a, ha, rfl⟩ := List.mem_map.mp hq
      simpa using hopen a ha
    rw [hext, packets, List.map_append, List.any_append]
    show ((packets ms).any _ || _) = _
    rw [hnone]
    simp

theorem Represents.receive {ps : List PacketData} {b : SessionBuilder} {l : Ledger}
    (h : Represents b l) (hvalid : l.Valid ps) (p : PacketData)
    (hpending : (SessionBuilder.receive p b).2.pendingFinalizations = []) :
    Represents (SessionBuilder.receive p b).2 (l.file p) ∧
      List.Forall₂ HandedOutFor (SessionBuilder.receive p b).1.flowEnd.toList (l.ended p) := by
  have hspec := admitted p b
  have hafter := h.sessionAfter p
  have hfinished := h.finished hvalid p
  constructor
  · constructor
    · rw [hspec.sessions, hfinished]
      unfold Ledger.file
      simp only
      split_ifs
      · exact h.sessions.erase _
      · exact h.sessions.set _ hafter
    · exact h.sameKeys.receive p
    · exact hpending
  · rw [hspec.flowEnd, hfinished]
    unfold Ledger.ended
    split_ifs
    · exact .cons ⟨rfl, rfl, hafter⟩ .nil
    · exact .nil

/-! ## One packet -/

/-- The part of the ledger that one packet adds to, as the builder reports it. -/
structure Reports (l : Ledger) (p : PacketData) (report : PacketReport) : Prop where
  session : Aggregates report.session ((l.expire p.timestamp).extended p)
  expired : List.Forall₂ HandedOutFor report.expired (l.expired p.timestamp)
  flowEnd : List.Forall₂ HandedOutFor report.flowEnd.toList ((l.expire p.timestamp).ended p)

theorem Represents.perPacket {ps : List PacketData} {b : SessionBuilder} {l : Ledger}
    (h : Represents b l) (hvalid : l.Valid ps) (p : PacketData) :
    Represents (perPacket p b).2 (l.step p) ∧ Reports l p (SessionBuilder.perPacket p b).1 := by
  have hpending := pending_perPacket p b
  obtain ⟨hswept, hexpired⟩ := h.sweep p.timestamp
  rw [perPacket_eq] at hpending ⊢
  simp only [Ledger.step] at hpending ⊢
  obtain ⟨hnext, hended⟩ := hswept.receive (hvalid.expire p.timestamp) p hpending
  have hsession := hswept.sessionAfter p
  rw [← (admitted p _).session] at hsession
  -- from here on only the answer and the state of `receive` matter
  generalize SessionBuilder.receive p (SessionBuilder.sweep p.timestamp b).2 = received
    at hnext hended hsession ⊢
  exact ⟨hnext, hsession, hexpired, hended⟩

/-! ## Runs -/

/-- The packets at which the builder opened a session: the session the packet is
recorded in has one packet then. -/
def openedAt (ps : List PacketData) : List ℕ :=
  ((machine.trace init ps).zipIdx.filter fun r => r.1.session.packetCount == 1).map Prod.snd

theorem openedAt_concat (ps : List PacketData) (p : PacketData) :
    openedAt (ps ++ [p]) = openedAt ps ++
      if (perPacket p (machine.exec init ps)).1.session.packetCount = 1 then [ps.length]
      else [] := by
  have hone : ∀ report : PacketReport,
      (([(report, ps.length)].filter fun r => r.1.session.packetCount == 1).map Prod.snd) =
        if report.session.packetCount = 1 then [ps.length] else [] := by
    intro report
    rcases eq_or_ne report.session.packetCount 1 with h | h <;> simp [h]
  unfold openedAt
  rw [trace_concat, List.zipIdx_append, List.filter_append, List.map_append,
    Machine.length_trace, List.zipIdx_singleton, Nat.zero_add, hone]

/-- A packet opens a session when the ledger has none for it. -/
theorem Reports.packetCount_eq_one_iff {ps : List PacketData} {l : Ledger} {p : PacketData}
    {report : PacketReport} (h : Reports l p report) (hvalid : l.Valid ps) :
    report.session.packetCount = 1 ↔
      SessionKey.fromPacket p ∉ (l.expire p.timestamp).active.keys := by
  have hcount := (TrafficSession.recorded_describes h.session).packetCount
  rw [packets, List.length_map] at hcount
  rcases (l.expire p.timestamp).extended_cases p with ⟨hmem, hext⟩ | ⟨ms, hms, hext⟩
  · simp [hcount, hext, hmem]
  · have hne : ms ≠ [] := (hvalid.expire p.timestamp).nonempty _ (Ledger.mem_records_of_get? hms)
    have hlen := List.length_pos_iff.mpr hne
    rw [hext, List.length_append, List.length_singleton] at hcount
    simp only [Dict.mem_keys_of_get? hms, not_true, iff_false]
    omega

/-- Session building accounts for every packet.  After any sequence of packets
the ledger of the sequence is valid, and the builder realises it: its sessions
are the ledger's open ones, what it has handed out are the closed ones, and the
sessions it has ever opened are the two together, each once. -/
theorem accounts_for_every_packet (ps : List PacketData) :
    (Ledger.ofPackets ps).Valid ps ∧
      Dict.Related Aggregates (machine.exec init ps).sessions (Ledger.ofPackets ps).active ∧
      List.Forall₂ HandedOutFor (handedOut ps) (Ledger.ofPackets ps).closed ∧
      (Ledger.ofPackets ps).opened = openedAt ps ∧
      SameKeys (machine.exec init ps) ∧
      (machine.exec init ps).pendingFinalizations = [] := by
  have hrun : Represents (machine.exec init ps) (Ledger.ofPackets ps) ∧
      List.Forall₂ HandedOutFor (handedOut ps) (Ledger.ofPackets ps).closed ∧
      (Ledger.ofPackets ps).opened = openedAt ps := by
    induction ps using List.reverseRecOn with
    | nil => exact ⟨represents_init, .nil, rfl⟩
    | append_singleton ps p ih =>
      obtain ⟨hrep, hout, hopened⟩ := ih
      have hvalid := Ledger.valid_ofPackets ps
      obtain ⟨hnext, hreports⟩ := hrep.perPacket hvalid p
      rw [exec_concat, Ledger.ofPackets_concat, handedOut_concat, openedAt_concat]
      refine ⟨hnext, ?_, ?_⟩
      · show List.Forall₂ _ _ (((Ledger.ofPackets ps).closed ++ _) ++ _)
        rw [List.append_assoc]
        exact List.rel_append hout (List.rel_append hreports.expired hreports.flowEnd)
      · have hone := hreports.packetCount_eq_one_iff hvalid
        show (if _ then (Ledger.ofPackets ps).opened
          else (Ledger.ofPackets ps).opened ++ [(Ledger.ofPackets ps).arrived]) = _
        rw [← hopened, hvalid.arrived]
        split_ifs with hmem hcount
        · exact absurd hmem (hone.mp hcount)
        · rw [List.append_nil]
        · rfl
        · rename_i hcount
          exact absurd (hone.mpr hmem) hcount
  exact ⟨Ledger.valid_ofPackets ps, hrun.1.sessions, hrun.2.1, hrun.2.2, hrun.1.sameKeys,
    hrun.1.pending⟩

end SessionBuilder

end SmartIDS.TrafficEngine
