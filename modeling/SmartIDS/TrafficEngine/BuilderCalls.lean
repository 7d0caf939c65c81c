import SmartIDS.TrafficEngine.BuilderSpec
set_option autoImplicit false

/-!
# TrafficEngine: the builder under any sequence of calls

The packet processor drives the builder by a fixed protocol; other callers need
not.  Whatever the calls and their order, every session of the builder is built
from packets of one 5-tuple, taken in the order in which they were processed.
-/

namespace SmartIDS.TrafficEngine

open SmartIDS.Foundation SmartIDS.PacketCapture

namespace SessionBuilder

/-- A call of one of the builder's methods. -/
inductive Call where
  | processPacket (p : PacketData)
  | drainFinalizedSessions
  | shouldPredict (p : PacketData)
  | finalizeSessionIfNeeded (p : PacketData)

/-- What a call returns. -/
inductive Answer where
  | recorded (session : TrafficSession)
  | drained (items : List Finalized)
  | predict (due : Bool)
  | flowEnd (item : Option Finalized)

/-- The sessions an answer hands to the caller. -/
def Answer.sessions : Answer → List TrafficSession
  | .recorded session => [session]
  | .drained items => items.map (·.session)
  | .predict _ => []
  | .flowEnd item => item.toList.map (·.session)

/-- The packet a call records. -/
def Call.packet? : Call → Option PacketData
  | .processPacket p => some p
  | _ => none

def Call.run (b : SessionBuilder) : Call → SessionBuilder × Answer
  | .processPacket p => ((b.processPacket p).2, .recorded (b.processPacket p).1)
  | .drainFinalizedSessions => (b.drainFinalizedSessions.2, .drained b.drainFinalizedSessions.1)
  | .shouldPredict p => ((b.shouldPredict p).2, .predict (b.shouldPredict p).1)
  | .finalizeSessionIfNeeded p =>
    ((b.finalizeSessionIfNeeded p).2, .flowEnd (b.finalizeSessionIfNeeded p).1)

/-- The builder under arbitrary calls. -/
def calls : Machine SessionBuilder Call Answer where
  step := Call.run

/-- The sessions after a sequence of calls: those the builder holds, those that
wait to be handed out, and those it has given to its callers. -/
def sessionsOf (cs : List Call) : List TrafficSession :=
  let b := calls.exec init cs
  b.sessions.entries.map Prod.snd ++ b.pendingFinalizations.map (·.session) ++
    (calls.trace init cs).flatMap Answer.sessions

/-- A session is built from some of these packets, all of one 5-tuple, in their
order. -/
def BuiltFrom (ps : List PacketData) (k : SessionKey) (s : TrafficSession) : Prop :=
  ∃ ms, ms.Sublist ps ∧ TrafficSession.recorded ms = some s ∧
    ∀ p ∈ ms, SessionKey.fromPacket p = k

theorem BuiltFrom.append {ps : List PacketData} {k : SessionKey} {s : TrafficSession}
    (h : BuiltFrom ps k s) (qs : List PacketData) : BuiltFrom (ps ++ qs) k s := by
  obtain ⟨ms, hsub, hrec, hkey⟩ := h
  exact ⟨ms, hsub.trans (List.sublist_append_left _ _), hrec, hkey⟩

/-- A packet opens a session. -/
theorem builtFrom_opened (ps : List PacketData) (p : PacketData) :
    BuiltFrom (ps ++ [p]) (SessionKey.fromPacket p) ((TrafficSession.opened p).update p) := by
  refine ⟨[p], List.sublist_append_right _ _, TrafficSession.recorded_singleton p, ?_⟩
  intro q hq
  rw [List.mem_singleton.mp hq]

/-- A packet of the same 5-tuple goes into it. -/
theorem BuiltFrom.update {ps : List PacketData} {p : PacketData} {s : TrafficSession}
    (h : BuiltFrom ps (SessionKey.fromPacket p) s) :
    BuiltFrom (ps ++ [p]) (SessionKey.fromPacket p) (s.update p) := by
  obtain ⟨ms, hsub, hrec, hkey⟩ := h
  refine ⟨ms ++ [p], hsub.append (List.Sublist.refl _), TrafficSession.recorded_concat p hrec, ?_⟩
  intro q hq
  rcases List.mem_append.mp hq with hold | hnew
  · exact hkey q hold
  · rw [List.mem_singleton.mp hnew]

/-! ## Properties of all sessions -/

/-- A property of a session and its key, given the packets recorded so far, that a
session has when a packet opens it and keeps through later packets, its own as
well as those of others. -/
structure Inherited (P : List PacketData → SessionKey → TrafficSession → Prop) : Prop where
  opened : ∀ ps p, P (ps ++ [p]) (SessionKey.fromPacket p) ((TrafficSession.opened p).update p)
  joined : ∀ {ps p s}, P ps (SessionKey.fromPacket p) s →
    fresh p.timestamp (SessionKey.fromPacket p, s) = true →
      P (ps ++ [p]) (SessionKey.fromPacket p) (s.update p)
  later : ∀ {ps k s} p, P ps k s → P (ps ++ [p]) k s

theorem inherited_builtFrom : Inherited BuiltFrom where
  opened := builtFrom_opened
  joined h _ := h.update
  later p h := h.append [p]

/-- The sessions the builder holds have the property. -/
structure Held (P : List PacketData → SessionKey → TrafficSession → Prop)
    (ps : List PacketData) (b : SessionBuilder) : Prop where
  sessions : ∀ e ∈ b.sessions.entries, P ps e.1 e.2
  pending : ∀ f ∈ b.pendingFinalizations, P ps f.sessionKey f.session

section held

variable {P : List PacketData → SessionKey → TrafficSession → Prop} {ps : List PacketData}
  {b : SessionBuilder}

theorem held_init : Held P [] init := by
  constructor
  · intro e he
    cases he
  · intro f hf
    cases hf

theorem Held.get? (h : Held P ps b) {k : SessionKey} {s : TrafficSession}
    (hs : b.sessions.get? k = some s) : P ps k s :=
  h.sessions (k, s) ((Dict.get?_eq_some_iff _ _ _).mp hs)

theorem Held.expireStaleSessions (h : Held P ps b) (now : Time) :
    Held P ps (expireStaleSessions now b) := by
  constructor
  · rw [sessions_expireStaleSessions]
    intro e he
    exact h.sessions e (List.mem_filter.mp he).1
  · rw [pending_expireStaleSessions]
    intro f hf
    rcases List.mem_append.mp hf with hold | hnew
    · exact h.pending f hold
    · obtain ⟨e, he, hstale⟩ := List.mem_filterMap.mp hnew
      obtain ⟨reason, -, rfl⟩ := Option.map_eq_some_iff.mp hstale
      exact h.sessions e he

/-- The session of a packet: opened by it, or fresh and joined by it. -/
theorem Held.sessionAfter (hP : Inherited P) (h : Held P ps b) (p : PacketData) :
    P (ps ++ [p]) (SessionKey.fromPacket p)
      (sessionAfter p (SessionBuilder.expireStaleSessions p.timestamp b)) := by
  unfold SessionBuilder.sessionAfter
  cases hget : (SessionBuilder.expireStaleSessions p.timestamp b).sessions.get?
      (SessionKey.fromPacket p) with
  | none => exact hP.opened ps p
  | some s =>
    refine hP.joined ((h.expireStaleSessions p.timestamp).get? hget) ?_
    rw [sessions_expireStaleSessions] at hget
    exact (List.mem_filter.mp ((Dict.get?_eq_some_iff _ _ _).mp hget)).2

theorem Held.processPacket (hP : Inherited P) (h : Held P ps b) (p : PacketData) :
    Held P (ps ++ [p]) (b.processPacket p).2 := by
  have hswept := h.expireStaleSessions p.timestamp
  constructor
  · show ∀ e ∈ (recordPacket p (SessionBuilder.expireStaleSessions p.timestamp b)).2.sessions.entries,
      _
    rw [(recordPacket_sessions p _).2]
    intro e he
    rcases (Dict.mem_entries_set_iff _ _ _ _).mp he with rfl | ⟨hold, -⟩
    · exact h.sessionAfter hP p
    · exact hP.later p (hswept.sessions e hold)
  · show ∀ f ∈ (recordPacket p
      (SessionBuilder.expireStaleSessions p.timestamp b)).2.pendingFinalizations, _
    rw [pending_recordPacket]
    intro f hf
    exact hP.later p (hswept.pending f hf)

/-- The session a packet ends was held under its own 5-tuple. -/
theorem Held.finalizeSessionIfNeeded (h : Held P ps b) (p : PacketData) :
    Held P ps (finalizeSessionIfNeeded p b).2 ∧
      ∀ f ∈ (SessionBuilder.finalizeSessionIfNeeded p b).1, P ps f.sessionKey f.session := by
  constructor
  · refine ⟨?_, ?_⟩
    · unfold SessionBuilder.finalizeSessionIfNeeded
      simp only
      cases b.sessions.get? (SessionKey.fromPacket p) with
      | none => exact h.sessions
      | some session =>
        simp only
        split_ifs
        · intro e he
          exact h.sessions e ((Dict.mem_entries_erase_iff _ _ _).mp he).1
        · exact h.sessions
    · rw [pending_finalizeSessionIfNeeded]
      exact h.pending
  · unfold SessionBuilder.finalizeSessionIfNeeded
    simp only
    cases hget : b.sessions.get? (SessionKey.fromPacket p) with
    | none => simp
    | some session =>
      simp only
      split_ifs
      · intro f hf
        rw [Option.mem_some_iff] at hf
        rw [← hf]
        exact h.get? hget
      · simp

/-- One call: what the builder holds and what it answers has the property. -/
theorem Held.run (hP : Inherited P) (h : Held P ps b) (c : Call) :
    Held P (ps ++ c.packet?.toList) (c.run b).1 ∧
      ∀ s ∈ (c.run b).2.sessions, ∃ k, P (ps ++ c.packet?.toList) k s := by
  cases c with
  | processPacket p =>
    refine ⟨h.processPacket hP p, ?_⟩
    intro s hs
    have hsession : s = SessionBuilder.sessionAfter p
        (SessionBuilder.expireStaleSessions p.timestamp b) :=
      (List.mem_singleton.mp hs).trans (recordPacket_sessions p _).1
    rw [hsession]
    exact ⟨_, h.sessionAfter hP p⟩
  | drainFinalizedSessions =>
    simp only [Call.packet?, Option.toList_none, List.append_nil]
    refine ⟨⟨h.sessions, fun f hf => absurd hf List.not_mem_nil⟩, ?_⟩
    intro s hs
    obtain ⟨f, hf, rfl⟩ := List.mem_map.mp hs
    exact ⟨_, h.pending f hf⟩
  | shouldPredict p =>
    simp only [Call.packet?, Option.toList_none, List.append_nil]
    refine ⟨⟨?_, ?_⟩, fun s hs => absurd hs List.not_mem_nil⟩
    · show ∀ e ∈ (SessionBuilder.shouldPredict p b).2.sessions.entries, _
      rw [sessions_shouldPredict]
      exact h.sessions
    · show ∀ f ∈ (SessionBuilder.shouldPredict p b).2.pendingFinalizations, _
      rw [pending_shouldPredict]
      exact h.pending
  | finalizeSessionIfNeeded p =>
    simp only [Call.packet?, Option.toList_none, List.append_nil]
    obtain ⟨hnext, hended⟩ := h.finalizeSessionIfNeeded p
    refine ⟨hnext, ?_⟩
    intro s hs
    obtain ⟨f, hf, rfl⟩ := List.mem_map.mp hs
    exact ⟨_, hended f (Option.mem_toList.mp hf)⟩

end held

/-- The packets a sequence of calls records, in order. -/
def packetsOf (cs : List Call) : List PacketData := cs.filterMap Call.packet?

theorem packetsOf_concat (cs : List Call) (c : Call) :
    packetsOf (cs ++ [c]) = packetsOf cs ++ c.packet?.toList := by
  rw [packetsOf, List.filterMap_append]
  cases c <;> rfl

theorem held_exec {P : List PacketData → SessionKey → TrafficSession → Prop} (hP : Inherited P)
    (cs : List Call) : Held P (packetsOf cs) (calls.exec init cs) := by
  refine @Machine.exec_history _ _ _ calls (fun cs b => Held P (packetsOf cs) b) init held_init
    ?_ cs
  intro cs c b h
  rw [packetsOf_concat]
  exact (h.run hP c).1

/-- Any run: every session of the builder has the property. -/
theorem Inherited.sessionsOf {P : List PacketData → SessionKey → TrafficSession → Prop}
    (hP : Inherited P) (cs : List Call) :
    ∀ s ∈ sessionsOf cs, ∃ k, P (packetsOf cs) k s := by
  have hanswers : ∀ s ∈ (calls.trace init cs).flatMap Answer.sessions,
      ∃ k, P (packetsOf cs) k s := by
    induction cs using List.reverseRecOn with
    | nil => exact fun s hs => absurd hs List.not_mem_nil
    | append_singleton cs c ih =>
      rw [packetsOf_concat, Machine.trace_concat, List.flatMap_append]
      intro s hs
      rcases List.mem_append.mp hs with hold | hnew
      · obtain ⟨k, hk⟩ := ih s hold
        refine ⟨k, ?_⟩
        cases c.packet? with
        | none => simpa using hk
        | some p => exact hP.later p hk
      · refine ((held_exec hP cs).run hP c).2 s ?_
        obtain ⟨a, ha, hs⟩ := List.mem_flatMap.mp hnew
        rw [List.mem_singleton] at ha
        rw [ha] at hs
        exact hs
  intro s hs
  rcases List.mem_append.mp hs with hheld | hgiven
  · rcases List.mem_append.mp hheld with hopen | hpending
    · obtain ⟨e, he, rfl⟩ := List.mem_map.mp hopen
      exact ⟨_, (held_exec hP cs).sessions e he⟩
    · obtain ⟨f, hf, rfl⟩ := List.mem_map.mp hpending
      exact ⟨_, (held_exec hP cs).pending f hf⟩
  · exact hanswers s hgiven

/-- Any run: every session of the builder is built from packets of one 5-tuple. -/
theorem builtFrom_of_mem_sessionsOf (cs : List Call) :
    ∀ s ∈ sessionsOf cs, ∃ k, BuiltFrom (packetsOf cs) k s :=
  inherited_builtFrom.sessionsOf cs

/-- A single packet is answered by the session it opens. -/
theorem mem_sessionsOf_processPacket (p : PacketData) :
    (TrafficSession.opened p).update p ∈ sessionsOf [.processPacket p] := by
  have hanswer : (init.processPacket p).1 = (TrafficSession.opened p).update p :=
    (recordPacket_sessions p _).1
  refine List.mem_append_right _ ?_
  rw [Machine.trace_cons, Machine.trace_nil, List.flatMap_singleton]
  exact List.mem_singleton.mpr hanswer.symm

end SessionBuilder

end SmartIDS.TrafficEngine
