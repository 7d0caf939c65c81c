import SmartIDS.Foundation.Window
import SmartIDS.TrafficEngine.BuilderCalls
set_option autoImplicit false

/-!
# TrafficEngine: how long a session lives

The sweep runs before every packet and over all sessions, so a packet only ever
joins a session that is within both limits at the time of the packet.  Since the
time of a session's last packet is the time of the packet that joined it last,
no session outgrows `MAX_SESSION_DURATION_SECONDS`, in whatever order the time
stamps arrive.
-/

namespace SmartIDS.TrafficEngine

open SmartIDS.Foundation SmartIDS.PacketCapture

namespace SessionBuilder

/-- At this time the session is within both limits. -/
structure WithinLimits (now : Time) (s : TrafficSession) : Prop where
  idle : now - s.lastSeen < idleTimeoutSeconds
  open_ : now - s.startTime < maxSessionDurationSeconds

theorem fresh_iff {now : Time} {e : SessionKey × TrafficSession} :
    fresh now e = true ↔ WithinLimits now e.2 := by
  unfold fresh staleReason
  split_ifs with hidle hlong
  · simp only [Option.isNone_some, Bool.false_eq_true, false_iff]
    exact fun h => absurd hidle (not_le.mpr h.idle)
  · simp only [Option.isNone_some, Bool.false_eq_true, false_iff]
    exact fun h => absurd hlong (not_le.mpr h.open_)
  · simp only [Option.isNone_none, true_iff]
    exact ⟨not_le.mp hidle, not_le.mp hlong⟩

/-- The sessions a sweep leaves are within both limits. -/
theorem withinLimits_of_mem_expire {now : Time} {b : SessionBuilder}
    {e : SessionKey × TrafficSession} (he : e ∈ (expireStaleSessions now b).sessions.entries) :
    WithinLimits now e.2 := by
  rw [sessions_expireStaleSessions] at he
  exact fresh_iff.mp (List.mem_filter.mp he).2

/-- A session is open at the time of its own last packet. -/
theorem withinLimits_opened (p : PacketData) :
    WithinLimits p.timestamp ((TrafficSession.opened p).update p) := by
  constructor
  · rw [TrafficSession.lastSeen_update, sub_self]
    decide +kernel
  · rw [TrafficSession.startTime_update]
    show p.timestamp - p.timestamp < _
    rw [sub_self]
    decide +kernel

theorem WithinLimits.update {p : PacketData} {s : TrafficSession}
    (h : WithinLimits p.timestamp s) : WithinLimits p.timestamp (s.update p) := by
  constructor
  · rw [TrafficSession.lastSeen_update, sub_self]
    decide +kernel
  · rw [TrafficSession.startTime_update]
    exact h.open_

/-- A session whose last packet came within the limits lasts less than the maximum. -/
theorem WithinLimits.duration {s : TrafficSession} (h : WithinLimits s.lastSeen s) :
    s.duration < maxSessionDurationSeconds := by
  unfold TrafficSession.duration
  exact max_lt (by decide +kernel) h.open_

/-- The session of a packet after it was recorded. -/
theorem withinLimits_sessionAfter (p : PacketData) (b : SessionBuilder) :
    WithinLimits p.timestamp (sessionAfter p (expireStaleSessions p.timestamp b)) := by
  unfold sessionAfter
  cases hget : (expireStaleSessions p.timestamp b).sessions.get? (SessionKey.fromPacket p) with
  | none => exact withinLimits_opened p
  | some s =>
    have hentry := (Dict.get?_eq_some_iff _ _ _).mp hget
    exact (withinLimits_of_mem_expire hentry).update

/-- After a packet every session is within both limits at the time of the packet. -/
theorem withinLimits_processPacket {p : PacketData} {b : SessionBuilder}
    {e : SessionKey × TrafficSession} (he : e ∈ (b.processPacket p).2.sessions.entries) :
    WithinLimits p.timestamp e.2 := by
  have hsessions : (b.processPacket p).2.sessions =
      (expireStaleSessions p.timestamp b).sessions.set (SessionKey.fromPacket p)
        (sessionAfter p (expireStaleSessions p.timestamp b)) :=
    (recordPacket_sessions p (expireStaleSessions p.timestamp b)).2
  rw [hsessions] at he
  rcases (Dict.mem_entries_set_iff _ _ _ _).mp he with rfl | ⟨hold, -⟩
  · exact withinLimits_sessionAfter p b
  · exact withinLimits_of_mem_expire hold

/-! ## Every session, every run -/

/-- Every session was within the limits when its last packet came. -/
theorem inherited_withinLimits : Inherited fun _ _ s => WithinLimits s.lastSeen s where
  opened _ p := by
    rw [TrafficSession.lastSeen_update]
    exact withinLimits_opened p
  joined _ hfresh := by
    rw [TrafficSession.lastSeen_update]
    exact (fresh_iff.mp hfresh).update
  later _ h := h

/-- The last packet of a session is a packet of its key. -/
theorem BuiltFrom.exists_lastSeen {ps : List PacketData} {k : SessionKey} {s : TrafficSession}
    (h : BuiltFrom ps k s) :
    ∃ q ∈ ps, SessionKey.fromPacket q = k ∧ q.timestamp = s.lastSeen := by
  obtain ⟨ms, hsub, hrec, hkey⟩ := h
  have hlast := (TrafficSession.recorded_describes hrec).lastSeen
  obtain ⟨q, hq, hstamp⟩ := Option.map_eq_some_iff.mp hlast
  have hmem : q ∈ ms := List.mem_of_getLast? hq
  exact ⟨q, hsub.subset hmem, hkey q hmem, hstamp⟩

/-- A packet joins a session only within both limits, so that every session the
builder ever makes is shorter than the maximum; after a packet every open session
is within both limits at the time of the packet; and when the time stamps do not
decrease, every open session has had a packet since `IDLE_TIMEOUT_SECONDS` ago. -/
theorem session_lifetime_bounds (cs : List Call) :
    (∀ p s, (expireStaleSessions p.timestamp (calls.exec init cs)).sessions.get?
          (SessionKey.fromPacket p) = some s →
        ((calls.exec init cs).processPacket p).1 = s.update p ∧
          p.timestamp - s.lastSeen < idleTimeoutSeconds ∧
          p.timestamp - s.startTime < maxSessionDurationSeconds) ∧
    (∀ s ∈ sessionsOf cs, s.duration < maxSessionDurationSeconds) ∧
    (∀ p, ∀ e ∈ (calls.exec init (cs ++ [.processPacket p])).sessions.entries,
        p.timestamp - e.2.lastSeen < idleTimeoutSeconds ∧
          p.timestamp - e.2.startTime < maxSessionDurationSeconds) ∧
    (∀ p, Window.Chronological PacketData.timestamp (packetsOf (cs ++ [.processPacket p])) →
        ∀ k ∈ (calls.exec init (cs ++ [.processPacket p])).sessions.keys,
          ∃ q ∈ packetsOf (cs ++ [.processPacket p]), SessionKey.fromPacket q = k ∧
            p.timestamp - idleTimeoutSeconds < q.timestamp ∧ q.timestamp ≤ p.timestamp) := by
  have hexec : ∀ p, calls.exec init (cs ++ [.processPacket p]) =
      ((calls.exec init cs).processPacket p).2 := fun p => calls.exec_concat init cs _
  have hlimits : ∀ p, ∀ e ∈ (calls.exec init (cs ++ [.processPacket p])).sessions.entries,
      WithinLimits p.timestamp e.2 := by
    intro p e he
    rw [hexec] at he
    exact withinLimits_processPacket he
  refine ⟨?_, ?_, fun p e he => ⟨(hlimits p e he).idle, (hlimits p e he).open_⟩, ?_⟩
  · intro p s hs
    have hfresh := withinLimits_of_mem_expire ((Dict.get?_eq_some_iff _ _ _).mp hs)
    refine ⟨?_, hfresh.idle, hfresh.open_⟩
    calc ((calls.exec init cs).processPacket p).1
        = sessionAfter p (expireStaleSessions p.timestamp (calls.exec init cs)) :=
          (recordPacket_sessions p _).1
      _ = s.update p := by rw [sessionAfter, hs, Option.getD_some]
  · intro s hs
    obtain ⟨-, hwithin⟩ := inherited_withinLimits.sessionsOf cs s hs
    exact hwithin.duration
  · intro p horder k hk
    obtain ⟨e, he, rfl⟩ := List.mem_map.mp hk
    obtain ⟨q, hq, hkey, hstamp⟩ := ((held_exec inherited_builtFrom _).sessions e he).exists_lastSeen
    have hidle := (hlimits p e he).idle
    refine ⟨q, hq, hkey, ?_, ?_⟩
    · rw [hstamp]
      exact sub_lt_comm.mp hidle
    · rw [packetsOf_concat] at hq horder
      rcases List.mem_append.mp hq with hold | hnew
      · exact (List.pairwise_append.mp horder).2.2 q hold p (by simp [Call.packet?])
      · rw [List.mem_singleton.mp hnew]

/-- A packet of one flow. -/
def flowPacket (t : Time) : PacketData :=
  { srcIp := "10.0.0.1", dstIp := "10.0.0.2", protocol := 17, packetSize := 100, timestamp := t }

/-- The second packet of a flow joins its session, and 29 seconds later the session
is still open. -/
theorem session_lifetime_bounds_of_two :
    (flowPacket 29).timestamp - 0 < idleTimeoutSeconds ∧
      ∃ q ∈ packetsOf [.processPacket (flowPacket 0), .processPacket (flowPacket 29)],
        SessionKey.fromPacket q = SessionKey.fromPacket (flowPacket 0) ∧
          29 - idleTimeoutSeconds < q.timestamp ∧ q.timestamp ≤ 29 := by
  have hbounds := session_lifetime_bounds [.processPacket (flowPacket 0)]
  constructor
  · exact (hbounds.1 (flowPacket 29) ((TrafficSession.opened (flowPacket 0)).update (flowPacket 0))
      (by decide +kernel)).2.1
  · refine hbounds.2.2.2 (flowPacket 29) ?_ (SessionKey.fromPacket (flowPacket 0)) (by decide +kernel)
    unfold Window.Chronological
    decide +kernel

end SessionBuilder

end SmartIDS.TrafficEngine
