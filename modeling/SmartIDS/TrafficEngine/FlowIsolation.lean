import Mathlib.Tactic.Linarith
import SmartIDS.TrafficEngine.BuilderSpec
set_option autoImplicit false

/-!
# TrafficEngine: flows do not interfere

Two runs of the builder are compared: on a packet sequence, and on the packets
of one 5-tuple alone.  A foreign packet can only expire the session of the tuple
earlier than the tuple's next own packet would.  So the first run is the second
one swept at some time already reached: `Ahead` says so, and the next own packet
sweeps at least as far.
-/

namespace SmartIDS.TrafficEngine

open SmartIDS.Foundation SmartIDS.PacketCapture

namespace SessionBuilder

/-- The session key of one flow. -/
def only (key : SessionKey) : SessionKey → Bool := fun k => k = key

/-- The packets of one flow. -/
def flowPackets (key : SessionKey) (ps : List PacketData) : List PacketData :=
  ps.filter fun p => SessionKey.fromPacket p = key

/-- What was handed out for a flow: each session, and whether a FIN or RST packet
ended it. -/
def handedOutFlow (key : SessionKey) (fs : List Finalized) : List (TrafficSession × Bool) :=
  (fs.filter fun f => only key f.sessionKey).map fun f => (f.session, f.reason == .flowEnd)

/-- The session of a flow that is still active. -/
def activeFlow (key : SessionKey) (b : SessionBuilder) : List (TrafficSession × Bool) :=
  (b.sessions.get? key).toList.map fun s => (s, false)

/-- The sessions a packet sequence gives a flow, finalised or not. -/
def flowSessions (key : SessionKey) (ps : List PacketData) : List (TrafficSession × Bool) :=
  handedOutFlow key (handedOut ps) ++ activeFlow key (machine.exec init ps)

/-- The answers of `should_predict` at the packets of a flow. -/
def flowPredictions (key : SessionKey) (ps : List PacketData) : List Bool :=
  ((ps.zip (machine.trace init ps)).filter fun e => SessionKey.fromPacket e.1 = key).map
    (·.2.predict)

/-- Packets in the order of their time stamps. -/
def TimeOrdered (ps : List PacketData) : Prop := ps.Pairwise fun p p' => p.timestamp ≤ p'.timestamp

/-! ## Two sweeps -/

/-- A session that is fresh stays fresh at earlier times. -/
theorem fresh_of_le {t t' : Time} (hle : t ≤ t') {e : SessionKey × TrafficSession}
    (h : fresh t' e = true) : fresh t e = true := by
  unfold fresh staleReason idleTimeoutSeconds maxSessionDurationSeconds at *
  split_ifs at h ⊢ <;> simp at h ⊢ <;> linarith

/-- The later of two sweeps decides. -/
theorem sweep_sweep {t t' : Time} (hle : t ≤ t') (b : SessionBuilder) :
    (sweep t' (sweep t b).2).2 = (sweep t' b).2 := by
  have hsessions : ∀ (now : Time) (c : SessionBuilder),
      (sweep now c).2.sessions = c.sessions.filter (fresh now) := sessions_expireStaleSessions
  have hstate : ∀ (now : Time) (c : SessionBuilder),
      (sweep now c).2.predictionState = (staleKeys now c).foldl Dict.erase c.predictionState :=
    predictionState_expireStaleSessions
  have hkeys : ∀ k, k ∈ staleKeys t' b ↔ k ∈ staleKeys t b ∨ k ∈ staleKeys t' (sweep t b).2 := by
    intro k
    rw [mem_staleKeys, mem_staleKeys, mem_staleKeys, hsessions, Dict.get?_filter]
    cases hget : b.sessions.get? k with
    | none => simp
    | some s =>
      cases hfresh : fresh t (k, s) with
      | true => simp [hfresh]
      | false =>
        have hstale : fresh t' (k, s) = false := by
          cases h' : fresh t' (k, s) with
          | false => rfl
          | true => rw [fresh_of_le hle h'] at hfresh; exact hfresh
        simp [hfresh, hstale]
  apply ext
  · apply Dict.ext
    rw [hsessions, hsessions, hsessions]
    simp only [Dict.filter, List.filter_filter]
    apply List.filter_congr
    intro e _
    cases h' : fresh t' e with
    | false => simp
    | true => simp [fresh_of_le hle h']
  · apply Dict.ext
    rw [hstate, hstate, hstate]
    simp only [Dict.entries_foldl_erase, List.filter_filter]
    apply List.filter_congr
    intro e _
    have := hkeys e.1
    simp only [this, not_or, Bool.decide_and, Bool.and_comm]
  · rfl

/-! ## A builder of a single flow -/

/-- The builder holds nothing but one flow, and nothing waits to be handed out. -/
structure OnlyFlow (key : SessionKey) (c : SessionBuilder) : Prop where
  restrict : c.restrict (only key) = c
  pending : c.pendingFinalizations = []

variable {key : SessionKey}

theorem OnlyFlow.entries {c : SessionBuilder} (h : OnlyFlow key c) :
    c.sessions.entries = (c.sessions.get? key).toList.map fun s => (key, s) := by
  have hkeys : ∀ e ∈ c.sessions.entries, e.1 = key := by
    intro e he
    rw [← h.restrict] at he
    simpa [only] using (List.mem_filter.mp he).2
  cases hentries : c.sessions.entries with
  | nil =>
    have hnone : c.sessions.get? key = none := by
      rw [Dict.get?, hentries]
      rfl
    rw [hnone]
    rfl
  | cons e rest =>
    have hfirst : e.1 = key := hkeys e (by rw [hentries]; exact List.mem_cons_self)
    have hrest : rest = [] := by
      rw [List.eq_nil_iff_forall_not_mem]
      intro e' he'
      have hnodup := c.sessions.nodup
      rw [hentries, List.map_cons, List.nodup_cons] at hnodup
      have hsame : e'.1 = key := hkeys e' (by rw [hentries]; exact List.mem_cons_of_mem _ he')
      exact hnodup.1 (hfirst.trans hsame.symm ▸ List.mem_map_of_mem he')
    have hget : c.sessions.get? key = some e.2 := by
      rw [Dict.get?_eq_some_iff, hentries, ← hfirst]
      exact List.mem_cons_self
    rw [hget, hrest]
    simp [← hfirst]

/-- What a sweep does to a single flow. -/
theorem OnlyFlow.handedOut_sweep {c : SessionBuilder} (h : OnlyFlow key c) (t : Time) :
    handedOutFlow key (sweep t c).1 =
      ((c.sessions.get? key).toList.filter fun s => !fresh t (key, s)).map fun s => (s, false) := by
  have hout : (sweep t c).1 = c.sessions.entries.filterMap (staleFinalized t) := by
    show (expireStaleSessions t c).pendingFinalizations = _
    rw [pending_expireStaleSessions, h.pending, List.nil_append]
  rw [hout, h.entries]
  cases c.sessions.get? key with
  | none => rfl
  | some s =>
    cases hreason : staleReason t s.startTime s.lastSeen with
    | none => simp [handedOutFlow, staleFinalized, fresh, hreason]
    | some reason =>
      have hne := staleReason_ne_flowEnd hreason
      simp [handedOutFlow, staleFinalized, fresh, hreason, only, hne]

/-- A sweep moves the active session of a flow, it does not change it. -/
theorem OnlyFlow.flow_sweep {c : SessionBuilder} (h : OnlyFlow key c) (t : Time) :
    handedOutFlow key (sweep t c).1 ++ activeFlow key (sweep t c).2 = activeFlow key c := by
  rw [h.handedOut_sweep, activeFlow, activeFlow, get?_sweep]
  cases c.sessions.get? key with
  | none => rfl
  | some s => cases hfresh : fresh t (key, s) <;> simp [hfresh]

theorem OnlyFlow.sweep {c : SessionBuilder} (h : OnlyFlow key c) (t : Time) :
    OnlyFlow key (sweep t c).2 := by
  constructor
  · have hcomm := congrArg (fun b => (drainFinalizedSessions b).2)
      (restrict_expireStaleSessions (only key) t c)
    rw [h.restrict] at hcomm
    exact hcomm
  · rfl

/-- Sweeping a flow twice hands out what the later sweep would. -/
theorem OnlyFlow.handedOut_sweep_sweep {c : SessionBuilder} (h : OnlyFlow key c) {t t' : Time}
    (hle : t ≤ t') :
    handedOutFlow key (SessionBuilder.sweep t c).1 ++
        handedOutFlow key (SessionBuilder.sweep t' (SessionBuilder.sweep t c).2).1 =
      handedOutFlow key (SessionBuilder.sweep t' c).1 := by
  rw [h.handedOut_sweep, (h.sweep t).handedOut_sweep, h.handedOut_sweep, get?_sweep]
  cases c.sessions.get? key with
  | none => rfl
  | some s =>
    cases hfresh : fresh t (key, s) with
    | true => simp [Option.filter_some, hfresh]
    | false =>
      have hstale : fresh t' (key, s) = false := by
        cases h' : fresh t' (key, s) with
        | false => rfl
        | true => rw [fresh_of_le hle h'] at hfresh; exact hfresh
      simp [hfresh, hstale]

/-! ## The two runs -/

/-- A builder swept at a time, if any. -/
def sweptAt : Option Time → SessionBuilder → List Finalized × SessionBuilder
  | none, c => ([], c)
  | some t, c => sweep t c

theorem sweptAt_none (c : SessionBuilder) : sweptAt none c = ([], c) := rfl

/-- The run on all packets, seen through one flow, is the run on the flow alone
swept at a time reached by now. -/
structure Ahead (key : SessionKey) (ps : List PacketData) (swept : Option Time) : Prop where
  reached : ∀ t ∈ swept, ∃ p ∈ ps, p.timestamp = t
  alone : OnlyFlow key (machine.exec init (flowPackets key ps))
  state : (machine.exec init ps).restrict (only key) =
    (sweptAt swept (machine.exec init (flowPackets key ps))).2
  handedOut : handedOutFlow key (handedOut ps) =
    handedOutFlow key (SessionBuilder.handedOut (flowPackets key ps)) ++
      handedOutFlow key (sweptAt swept (machine.exec init (flowPackets key ps))).1
  predictions : flowPredictions key ps = flowPredictions key (flowPackets key ps)

theorem handedOutFlow_append (fs gs : List Finalized) :
    handedOutFlow key (fs ++ gs) = handedOutFlow key fs ++ handedOutFlow key gs := by
  simp [handedOutFlow]

@[simp] theorem handedOutFlow_nil : handedOutFlow key [] = [] := rfl

theorem handedOutFlow_filter (fs : List Finalized) :
    handedOutFlow key (fs.filter fun f => only key f.sessionKey) = handedOutFlow key fs := by
  simp [handedOutFlow]

theorem flowPredictions_concat (ps : List PacketData) (p : PacketData) :
    flowPredictions key (ps ++ [p]) = flowPredictions key ps ++
      if SessionKey.fromPacket p = key then
        [(perPacket p (machine.exec init ps)).1.predict]
      else [] := by
  unfold flowPredictions
  rw [trace_concat, List.zip_append (Machine.length_trace _ _ _).symm, List.filter_append,
    List.map_append]
  rcases eq_or_ne (SessionKey.fromPacket p) key with hkey | hkey <;> simp [hkey]

/-- Whatever the flow was swept at before, a later packet sweeps it further. -/
theorem Ahead.sweep_again {ps : List PacketData} {swept : Option Time} {p : PacketData}
    (h : Ahead key ps swept) (hlater : ∀ p' ∈ ps, p'.timestamp ≤ p.timestamp) :
    (sweep p.timestamp (sweptAt swept (machine.exec init (flowPackets key ps))).2).2 =
        (sweep p.timestamp (machine.exec init (flowPackets key ps))).2 ∧
      handedOutFlow key (sweptAt swept (machine.exec init (flowPackets key ps))).1 ++
          handedOutFlow key
            (sweep p.timestamp (sweptAt swept (machine.exec init (flowPackets key ps))).2).1 =
        handedOutFlow key (sweep p.timestamp (machine.exec init (flowPackets key ps))).1 := by
  cases swept with
  | none => exact ⟨rfl, rfl⟩
  | some t =>
    obtain ⟨p', hp', rfl⟩ := h.reached t rfl
    exact ⟨sweep_sweep (hlater p' hp') _, h.alone.handedOut_sweep_sweep (hlater p' hp')⟩

/-- A packet of another flow sweeps. -/
theorem Ahead.foreign {ps : List PacketData} {swept : Option Time} {p : PacketData}
    (h : Ahead key ps swept) (hkey : SessionKey.fromPacket p ≠ key)
    (hlater : ∀ p' ∈ ps, p'.timestamp ≤ p.timestamp) :
    Ahead key (ps ++ [p]) (some p.timestamp) := by
  have hq : only key (SessionKey.fromPacket p) = false := by simpa [only] using hkey
  have hflow : flowPackets key (ps ++ [p]) = flowPackets key ps := by
    simp [flowPackets, hkey]
  have hstep := perPacket_restrict_of_neg (machine.exec init ps) hq
  rw [h.state] at hstep
  have hfinal : handedOutFlow key (perPacket p (machine.exec init ps)).1.handedOut =
      handedOutFlow key
        (sweep p.timestamp (sweptAt swept (machine.exec init (flowPackets key ps))).2).1 := by
    rw [hstep, handedOutFlow_filter, PacketReport.handedOut, handedOutFlow_append]
    cases hend : (perPacket p (machine.exec init ps)).1.flowEnd with
    | none => simp [handedOutFlow]
    | some f =>
      have hf := (sessionKey_of_flowEnd hend).1
      simp [handedOutFlow, only, hf, hkey]
  constructor
  · intro t ht
    obtain rfl : p.timestamp = t := Option.some.inj ht
    exact ⟨p, by simp, rfl⟩
  · rw [hflow]
    exact h.alone
  · rw [hflow, exec_concat]
    exact (congrArg Prod.snd hstep).symm.trans (h.sweep_again hlater).1
  · rw [hflow, handedOut_concat, handedOutFlow_append, h.handedOut, hfinal, List.append_assoc,
      (h.sweep_again hlater).2]
    rfl
  · rw [hflow, flowPredictions_concat, if_neg hkey, List.append_nil]
    exact h.predictions

/-- A packet of the flow in a builder and in one of the flow alone that a sweep
makes equal. -/
theorem perPacket_own {b c : SessionBuilder} {p : PacketData}
    (hq : only key (SessionKey.fromPacket p) = true)
    (hsame : (sweep p.timestamp (b.restrict (only key))).2 = (sweep p.timestamp c).2) :
    (perPacket p b).2.restrict (only key) = (perPacket p c).2 ∧
      (perPacket p b).1.predict = (perPacket p c).1.predict ∧
      handedOutFlow key (perPacket p b).1.handedOut =
        handedOutFlow key (sweep p.timestamp (b.restrict (only key))).1 ++
          handedOutFlow key (perPacket p c).1.flowEnd.toList := by
  have hstep := perPacket_restrict b hq
  rw [perPacket_eq, hsame, Prod.mk.injEq, PacketReport.mk.injEq] at hstep
  obtain ⟨⟨-, hexpired, hpredict, hflowEnd⟩, hstate⟩ := hstep
  rw [perPacket_eq p c]
  simp only
  refine ⟨hstate.symm, hpredict.symm, ?_⟩
  rw [PacketReport.handedOut, handedOutFlow_append, ← handedOutFlow_filter, hexpired, hflowEnd]

/-- A packet of the flow brings the two runs together again. -/
theorem Ahead.own {ps : List PacketData} {swept : Option Time} {p : PacketData}
    (h : Ahead key ps swept) (hkey : SessionKey.fromPacket p = key)
    (hlater : ∀ p' ∈ ps, p'.timestamp ≤ p.timestamp) : Ahead key (ps ++ [p]) none := by
  have hq : only key (SessionKey.fromPacket p) = true := by simpa [only] using hkey
  have hflow : flowPackets key (ps ++ [p]) = flowPackets key ps ++ [p] := by
    simp [flowPackets, hkey]
  obtain ⟨hsame, hout⟩ := h.sweep_again hlater
  obtain ⟨hstate, hpredict, hfinal⟩ :=
    perPacket_own (b := machine.exec init ps) hq (h.state.symm ▸ hsame)
  obtain ⟨halone, -, hfinalAlone⟩ :=
    perPacket_own (b := machine.exec init (flowPackets key ps)) hq (by rw [h.alone.restrict])
  rw [h.state] at hfinal
  rw [h.alone.restrict] at hfinalAlone
  constructor
  · intro t ht
    exact absurd ht (by simp)
  · rw [hflow, exec_concat]
    exact ⟨halone, pending_perPacket _ _⟩
  · rw [hflow, exec_concat, exec_concat, sweptAt_none, hstate]
  · rw [hflow, handedOut_concat, handedOut_concat, handedOutFlow_append, handedOutFlow_append,
      h.handedOut, hfinal, hfinalAlone, ← hout, sweptAt_none]
    simp only [List.append_assoc, handedOutFlow_nil, List.append_nil]
  · rw [hflow, flowPredictions_concat, flowPredictions_concat, if_pos hkey, if_pos hkey,
      h.predictions, hpredict]

theorem exists_ahead (key : SessionKey) {ps : List PacketData} (hordered : TimeOrdered ps) :
    ∃ swept, Ahead key ps swept := by
  induction ps using List.reverseRecOn with
  | nil =>
    refine ⟨none, ?_, ⟨rfl, rfl⟩, rfl, rfl, rfl⟩
    intro t ht
    exact absurd ht (by simp)
  | append_singleton ps p ih =>
    rw [TimeOrdered, List.pairwise_append] at hordered
    obtain ⟨swept, hahead⟩ := ih hordered.1
    have hlater : ∀ p' ∈ ps, p'.timestamp ≤ p.timestamp := fun p' hp' =>
      hordered.2.2 p' hp' p List.mem_cons_self
    rcases eq_or_ne (SessionKey.fromPacket p) key with hkey | hkey
    · exact ⟨none, hahead.own hkey hlater⟩
    · exact ⟨some p.timestamp, hahead.foreign hkey hlater⟩

/-- Foreign packets change neither the sessions of a flow nor the answers of
`should_predict` at its packets, as long as time does not run backwards. -/
theorem flow_isolated (key : SessionKey) (ps : List PacketData) (hordered : TimeOrdered ps) :
    flowSessions key ps = flowSessions key (flowPackets key ps) ∧
      flowPredictions key ps = flowPredictions key (flowPackets key ps) := by
  obtain ⟨swept, hahead⟩ := exists_ahead key hordered
  refine ⟨?_, hahead.predictions⟩
  have hactive : activeFlow key (machine.exec init ps) =
      activeFlow key (sweptAt swept (machine.exec init (flowPackets key ps))).2 := by
    rw [← hahead.state, activeFlow, activeFlow, sessions_restrict, Dict.get?_restrict_of_pos]
    simp [only]
  unfold flowSessions
  rw [hahead.handedOut, hactive, List.append_assoc]
  congr 1
  cases swept with
  | none => rfl
  | some t => exact hahead.alone.flow_sweep t

/-- Two packets of one flow, 50 s apart, and one of another flow between them. -/
def interleaved : List PacketData :=
  [{ srcIp := "10.0.0.1", dstIp := "10.0.0.9", protocol := 17, packetSize := 60, timestamp := 0 },
    { srcIp := "10.0.0.2", dstIp := "10.0.0.9", protocol := 17, packetSize := 60, timestamp := 40 },
    { srcIp := "10.0.0.1", dstIp := "10.0.0.9", protocol := 17, packetSize := 60, timestamp := 50 }]

/-- The foreign packet expires the flow's first session, which its second packet
would have expired anyway. -/
theorem flow_isolated_interleaved :
    (flowSessions ⟨"10.0.0.1", "10.0.0.9", 17, none, none⟩ interleaved).length = 2 ∧
      flowSessions ⟨"10.0.0.1", "10.0.0.9", 17, none, none⟩ interleaved =
        flowSessions ⟨"10.0.0.1", "10.0.0.9", 17, none, none⟩
          (flowPackets ⟨"10.0.0.1", "10.0.0.9", 17, none, none⟩ interleaved) := by
  have hordered : TimeOrdered interleaved := by
    unfold TimeOrdered
    decide +kernel
  exact ⟨by decide +kernel, (flow_isolated _ interleaved hordered).1⟩

end SessionBuilder

end SmartIDS.TrafficEngine
