import SmartIDS.TrafficEngine.BuilderSpec
set_option autoImplicit false

/-!
# TrafficEngine: the builder between two packets

Between two packets every active session is filed under its own source address,
none has seen its last packet, and none waits to be handed out.  From such a
state the report about a packet can be read off the packet and the stale
sessions, and the next state is such a state again.
-/

namespace SmartIDS.TrafficEngine

open SmartIDS.Foundation SmartIDS.PacketCapture

namespace SessionBuilder

structure WellFiled (b : SessionBuilder) : Prop where
  srcIp : ∀ k s, b.sessions.get? k = some s → s.srcIp = k.srcIp
  running : ∀ k s, b.sessions.get? k = some s → s.finished = false
  drained : b.pendingFinalizations = []

theorem wellFiled_init : WellFiled init := by
  refine ⟨?_, ?_, rfl⟩
  · intro k s h
    cases h
  · intro k s h
    cases h

theorem WellFiled.sweep {b : SessionBuilder} (h : WellFiled b) (now : Time) :
    WellFiled (sweep now b).2 := by
  have hold : ∀ k s, (SessionBuilder.sweep now b).2.sessions.get? k = some s →
      b.sessions.get? k = some s := by
    intro k s hs
    rw [get?_sweep, Option.filter_eq_some_iff] at hs
    exact hs.1
  exact ⟨fun k s hs => h.srcIp k s (hold k s hs), fun k s hs => h.running k s (hold k s hs), rfl⟩

/-- The session of a packet belongs to its source, and is finished exactly when
this packet ends it. -/
theorem WellFiled.sessionAfter {b : SessionBuilder} (h : WellFiled b) (p : PacketData) :
    (sessionAfter p b).srcIp = p.srcIp ∧ (sessionAfter p b).finished = p.endsFlow := by
  unfold SessionBuilder.sessionAfter
  rw [TrafficSession.srcIp_update, TrafficSession.finished_update]
  cases hget : b.sessions.get? (SessionKey.fromPacket p) with
  | none => exact ⟨rfl, Bool.false_or _⟩
  | some s =>
    rw [Option.getD_some, h.running _ s hget, Bool.false_or]
    exact ⟨h.srcIp _ s hget, rfl⟩

/-- What one packet does in such a state. -/
structure Reported (p : PacketData) (b : SessionBuilder) (report : PacketReport)
    (b' : SessionBuilder) : Prop where
  srcIp : report.session.srcIp = p.srcIp
  expired : ∀ f ∈ report.expired,
    f.sessionKey ∈ staleKeys p.timestamp b ∧ f.session.srcIp = f.sessionKey.srcIp
  stale : ∀ k ∈ staleKeys p.timestamp b, ∃ f ∈ report.expired, f.sessionKey = k
  flowEnd : report.flowEnd =
    if p.endsFlow then some ⟨report.session, SessionKey.fromPacket p, .flowEnd⟩ else none
  mem_sessions : ∀ k, k ∈ b'.sessions.keys ↔
    (k = SessionKey.fromPacket p ∧ p.endsFlow = false) ∨
      (k ≠ SessionKey.fromPacket p ∧ k ∈ b.sessions.keys ∧ k ∉ staleKeys p.timestamp b)

theorem of_staleFinalized {now : Time} {e : SessionKey × TrafficSession} {f : Finalized}
    (h : staleFinalized now e = some f) : f.sessionKey = e.1 ∧ f.session = e.2 := by
  obtain ⟨reason, -, rfl⟩ := Option.map_eq_some_iff.mp h
  exact ⟨rfl, rfl⟩

/-- The sessions a sweep hands out are the stale ones. -/
theorem WellFiled.mem_sweep {b : SessionBuilder} (h : WellFiled b) (now : Time) (f : Finalized) :
    f ∈ (SessionBuilder.sweep now b).1 ↔ ∃ s, b.sessions.get? f.sessionKey = some s ∧
      staleFinalized now (f.sessionKey, s) = some f := by
  have hswept : (SessionBuilder.sweep now b).1 =
      b.sessions.entries.filterMap (staleFinalized now) := by
    show (expireStaleSessions now b).pendingFinalizations = _
    rw [pending_expireStaleSessions, h.drained, List.nil_append]
  rw [hswept, List.mem_filterMap]
  constructor
  · rintro ⟨⟨k, s⟩, he, hf⟩
    obtain ⟨hkey, -⟩ := of_staleFinalized hf
    rw [hkey]
    exact ⟨s, (Dict.get?_eq_some_iff _ _ _).mpr he, hf⟩
  · rintro ⟨s, hs, hf⟩
    exact ⟨(f.sessionKey, s), (Dict.get?_eq_some_iff _ _ _).mp hs, hf⟩

theorem fresh_eq_false_iff (now : Time) (e : SessionKey × TrafficSession) :
    fresh now e = false ↔ ∃ f, staleFinalized now e = some f := by
  unfold fresh staleFinalized
  cases staleReason now e.2.startTime e.2.lastSeen <;> simp

theorem mem_keys_sweep (now : Time) (b : SessionBuilder) (k : SessionKey) :
    k ∈ (SessionBuilder.sweep now b).2.sessions.keys ↔
      k ∈ b.sessions.keys ∧ k ∉ staleKeys now b := by
  rw [← Dict.get?_isSome_iff, ← Dict.get?_isSome_iff, get?_sweep, mem_staleKeys]
  cases b.sessions.get? k with
  | none => simp
  | some s => cases hfresh : fresh now (k, s) <;> simp [Option.filter_some, hfresh]

/-- An active session after a packet is that of the packet, still running, or was
active before. -/
theorem WellFiled.get?_perPacket {b : SessionBuilder} (h : WellFiled b) (p : PacketData)
    {k : SessionKey} {s : TrafficSession} (hs : (perPacket p b).2.sessions.get? k = some s) :
    (k = SessionKey.fromPacket p ∧ s.srcIp = p.srcIp ∧ s.finished = false) ∨
      b.sessions.get? k = some s := by
  have hswept := h.sweep p.timestamp
  obtain ⟨hsrcIp, hfinished⟩ := hswept.sessionAfter p
  have hold : (SessionBuilder.sweep p.timestamp b).2.sessions.get? k = some s →
      b.sessions.get? k = some s := by
    intro hs
    rw [get?_sweep, Option.filter_eq_some_iff] at hs
    exact hs.1
  rw [perPacket_eq] at hs
  simp only [(admitted p (SessionBuilder.sweep p.timestamp b).2).sessions, hfinished] at hs
  rcases eq_or_ne k (SessionKey.fromPacket p) with rfl | hne
  · cases hends : p.endsFlow with
    | true => simp [hends] at hs
    | false =>
      simp only [hends, Bool.false_eq_true, if_false, Dict.get?_set_self,
        Option.some.injEq] at hs
      subst hs
      exact Or.inl ⟨rfl, hsrcIp, hfinished.trans hends⟩
  · refine Or.inr (hold ?_)
    cases hends : p.endsFlow with
    | true => simpa [hends, Dict.get?_erase_of_ne _ hne] using hs
    | false => simpa [hends, Dict.get?_set_of_ne _ _ hne] using hs

theorem WellFiled.perPacket {b : SessionBuilder} (h : WellFiled b) (p : PacketData) :
    WellFiled (perPacket p b).2 := by
  refine ⟨fun k s hs => ?_, fun k s hs => ?_, pending_perPacket p b⟩
  · obtain ⟨rfl, hsrcIp, -⟩ | hold := h.get?_perPacket p hs
    · exact hsrcIp
    · exact h.srcIp k s hold
  · obtain ⟨-, -, hrunning⟩ | hold := h.get?_perPacket p hs
    · exact hrunning
    · exact h.running k s hold

theorem WellFiled.reported {b : SessionBuilder} (h : WellFiled b) (p : PacketData) :
    Reported p b (SessionBuilder.perPacket p b).1 (SessionBuilder.perPacket p b).2 := by
  obtain ⟨hsrcIp, hfinished⟩ := (h.sweep p.timestamp).sessionAfter p
  obtain ⟨hsession, hflowEnd, hsessions⟩ := admitted p (SessionBuilder.sweep p.timestamp b).2
  rw [hfinished] at hflowEnd hsessions
  have hkeys := mem_keys_sweep p.timestamp b
  rw [perPacket_eq]
  generalize SessionBuilder.receive p (SessionBuilder.sweep p.timestamp b).2 = received
    at hsession hflowEnd hsessions ⊢
  refine ⟨?_, ?_, ?_, ?_, ?_⟩
  · exact (congrArg TrafficSession.srcIp hsession).trans hsrcIp
  · intro f hf
    obtain ⟨s, hs, hstale⟩ := (h.mem_sweep p.timestamp f).mp hf
    refine ⟨(mem_staleKeys _ _ _).mpr ⟨s, hs, (fresh_eq_false_iff _ _).mpr ⟨f, hstale⟩⟩, ?_⟩
    rw [(of_staleFinalized hstale).2]
    exact h.srcIp _ s hs
  · intro k hk
    obtain ⟨s, hs, hstale⟩ := (mem_staleKeys _ _ _).mp hk
    obtain ⟨f, hf⟩ := (fresh_eq_false_iff _ _).mp hstale
    obtain ⟨rfl, -⟩ := of_staleFinalized hf
    exact ⟨f, (h.mem_sweep p.timestamp f).mpr ⟨s, hs, hf⟩, rfl⟩
  · rw [hflowEnd, hsession]
  · intro k
    rw [hsessions]
    cases hends : p.endsFlow with
    | true =>
      rw [if_pos rfl, Dict.mem_keys_erase, hkeys]
      simp [and_comm]
    | false =>
      rw [if_neg Bool.false_ne_true, Dict.mem_keys_set, hkeys]
      rcases eq_or_ne k (SessionKey.fromPacket p) with rfl | hne
      · simp
      · simp [hne]

end SessionBuilder

end SmartIDS.TrafficEngine
