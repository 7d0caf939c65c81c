import SmartIDS.TrafficEngine.SessionBuilder
set_option autoImplicit false

/-!
# TrafficEngine: what the builder's operations do

The expiry loop in closed form, and the restriction of a builder to a set of
5-tuples.  An operation commutes with the restriction when its packet is of one
of the tuples, and is invisible to it otherwise, except that every packet
expires the sessions that its time stamp makes stale.
-/

namespace SmartIDS.TrafficEngine

open SmartIDS.Foundation SmartIDS.PacketCapture

namespace SessionBuilder

/-! ## Expiry in closed form -/

/-- Whether an entry survives a sweep. -/
def fresh (now : Time) (e : SessionKey × TrafficSession) : Bool :=
  (staleReason now e.2.startTime e.2.lastSeen).isNone

/-- What a sweep hands out for an entry. -/
def staleFinalized (now : Time) (e : SessionKey × TrafficSession) : Option Finalized :=
  (staleReason now e.2.startTime e.2.lastSeen).map fun reason => ⟨e.2, e.1, reason⟩

/-- The keys a sweep removes. -/
def staleKeys (now : Time) (b : SessionBuilder) : List SessionKey :=
  (b.sessions.entries.filterMap (staleItem now)).map Prod.fst

theorem sessions_foldl_expireItem (items : List (SessionKey × Reason)) (b : SessionBuilder) :
    (items.foldl expireItem b).sessions = (items.map Prod.fst).foldl Dict.erase b.sessions := by
  induction items generalizing b with
  | nil => rfl
  | cons item items ih =>
    have hstep : (expireItem b item).sessions = b.sessions.erase item.1 := by
      unfold expireItem
      cases b.sessions.get? item.1 <;> rfl
    rw [List.foldl_cons, ih, hstep]
    rfl

theorem predictionState_foldl_expireItem (items : List (SessionKey × Reason))
    (b : SessionBuilder) :
    (items.foldl expireItem b).predictionState =
      (items.map Prod.fst).foldl Dict.erase b.predictionState := by
  induction items generalizing b with
  | nil => rfl
  | cons item items ih =>
    have hstep : (expireItem b item).predictionState = b.predictionState.erase item.1 := by
      unfold expireItem
      cases b.sessions.get? item.1 <;> rfl
    rw [List.foldl_cons, ih, hstep]
    rfl

theorem pending_foldl_expireItem (items : List (SessionKey × Reason)) (b : SessionBuilder)
    (hnodup : (items.map Prod.fst).Nodup) :
    (items.foldl expireItem b).pendingFinalizations =
      b.pendingFinalizations ++ items.filterMap fun item =>
        (b.sessions.get? item.1).map fun session => ⟨session, item.1, item.2⟩ := by
  induction items generalizing b with
  | nil => simp
  | cons item items ih =>
    rw [List.map_cons, List.nodup_cons] at hnodup
    have hpending : (expireItem b item).pendingFinalizations = b.pendingFinalizations ++
        ((b.sessions.get? item.1).map fun session => ⟨session, item.1, item.2⟩).toList := by
      unfold expireItem
      cases b.sessions.get? item.1 <;> simp
    have hsessions : (expireItem b item).sessions = b.sessions.erase item.1 := by
      unfold expireItem
      cases b.sessions.get? item.1 <;> rfl
    rw [List.foldl_cons, ih _ hnodup.2, hpending, hsessions]
    -- the later items have other keys, so the erasure is invisible to them
    have hrest : (items.filterMap fun item' =>
        ((b.sessions.erase item.1).get? item'.1).map fun session =>
          (⟨session, item'.1, item'.2⟩ : Finalized)) =
        items.filterMap fun item' =>
          (b.sessions.get? item'.1).map fun session => ⟨session, item'.1, item'.2⟩ := by
      apply List.filterMap_congr
      intro item' hitem'
      have hne : item'.1 ≠ item.1 := fun heq => hnodup.1 (heq ▸ List.mem_map_of_mem hitem')
      rw [Dict.get?_erase_of_ne _ hne]
    rw [hrest, List.filterMap_cons]
    cases b.sessions.get? item.1 <;> simp

theorem mem_staleKeys_iff (now : Time) (b : SessionBuilder) {e : SessionKey × TrafficSession}
    (he : e ∈ b.sessions.entries) : e.1 ∈ staleKeys now b ↔ fresh now e = false := by
  simp only [staleKeys, List.mem_map, List.mem_filterMap, staleItem, fresh]
  constructor
  · rintro ⟨item, ⟨e', he', hstale⟩, hkey⟩
    obtain ⟨reason, hreason, rfl⟩ := Option.map_eq_some_iff.mp hstale
    have hsame : e'.2 = e.2 := by
      have h₁ : b.sessions.get? e.1 = some e.2 := (Dict.get?_eq_some_iff _ _ _).mpr he
      have h₂ : b.sessions.get? e.1 = some e'.2 :=
        (Dict.get?_eq_some_iff _ _ _).mpr (by rw [← hkey]; exact he')
      rw [h₁, Option.some.injEq] at h₂
      exact h₂.symm
    rw [hsame] at hreason
    simp [hreason]
  · intro hstale
    rw [Option.isNone_eq_false_iff, Option.isSome_iff_exists] at hstale
    obtain ⟨reason, hreason⟩ := hstale
    exact ⟨(e.1, reason), ⟨e, he, by simp [hreason]⟩, rfl⟩

theorem mem_staleKeys (now : Time) (b : SessionBuilder) (k : SessionKey) :
    k ∈ staleKeys now b ↔ ∃ s, b.sessions.get? k = some s ∧ fresh now (k, s) = false := by
  constructor
  · intro hk
    have hkey : k ∈ b.sessions.keys := by
      simp only [staleKeys, List.mem_map, List.mem_filterMap, staleItem] at hk
      obtain ⟨item, ⟨e, he, hstale⟩, rfl⟩ := hk
      obtain ⟨reason, -, rfl⟩ := Option.map_eq_some_iff.mp hstale
      exact Dict.mem_keys_of_mem he
    obtain ⟨s, hs⟩ := Dict.exists_get?_of_mem hkey
    exact ⟨s, hs, (mem_staleKeys_iff now b ((Dict.get?_eq_some_iff _ _ _).mp hs)).mp hk⟩
  · rintro ⟨s, hs, hstale⟩
    exact (mem_staleKeys_iff now b ((Dict.get?_eq_some_iff _ _ _).mp hs)).mpr hstale

theorem nodup_staleKeys (now : Time) (b : SessionBuilder) : (staleKeys now b).Nodup := by
  have hsub : (staleKeys now b).Sublist b.sessions.keys := by
    have hkeys : staleKeys now b = (b.sessions.entries.filter fun e => !fresh now e).map Prod.fst := by
      rw [staleKeys]
      induction b.sessions.entries with
      | nil => rfl
      | cons e rest ih =>
        rw [List.filterMap_cons, List.filter_cons]
        cases hreason : staleReason now e.2.startTime e.2.lastSeen with
        | none => simpa [staleItem, fresh, hreason] using ih
        | some reason => simpa [staleItem, fresh, hreason] using ih
    rw [hkeys]
    exact List.filter_sublist.map _
  exact b.sessions.nodup_keys.sublist hsub

/-- A sweep keeps the fresh sessions. -/
theorem sessions_expireStaleSessions (now : Time) (b : SessionBuilder) :
    (expireStaleSessions now b).sessions = b.sessions.filter (fresh now) := by
  apply Dict.ext
  show _ = b.sessions.entries.filter (fresh now)
  unfold expireStaleSessions
  rw [sessions_foldl_expireItem, Dict.entries_foldl_erase]
  apply List.filter_congr
  intro e he
  have hiff := mem_staleKeys_iff now b he
  rw [staleKeys] at hiff
  cases hfresh : fresh now e <;> simp [hiff, hfresh]

theorem predictionState_expireStaleSessions (now : Time) (b : SessionBuilder) :
    (expireStaleSessions now b).predictionState =
      (staleKeys now b).foldl Dict.erase b.predictionState :=
  predictionState_foldl_expireItem _ _

/-- A sweep hands out the stale sessions, in the order of the dictionary. -/
theorem pending_expireStaleSessions (now : Time) (b : SessionBuilder) :
    (expireStaleSessions now b).pendingFinalizations =
      b.pendingFinalizations ++ b.sessions.entries.filterMap (staleFinalized now) := by
  unfold expireStaleSessions
  rw [pending_foldl_expireItem _ _ (nodup_staleKeys now b), List.filterMap_filterMap]
  congr 1
  apply List.filterMap_congr
  intro e he
  have hget : b.sessions.get? e.1 = some e.2 := (Dict.get?_eq_some_iff _ _ _).mpr he
  unfold staleItem staleFinalized
  cases staleReason now e.2.startTime e.2.lastSeen <;> simp [hget]

/-! ## The per-packet protocol as a sweep followed by an admission -/

/-- A sweep whose result is drained at once. -/
def sweep (now : Time) (b : SessionBuilder) : List Finalized × SessionBuilder :=
  drainFinalizedSessions (expireStaleSessions now b)

theorem get?_sweep (t : Time) (c : SessionBuilder) (k : SessionKey) :
    (sweep t c).2.sessions.get? k = (c.sessions.get? k).filter fun s => fresh t (k, s) := by
  show (expireStaleSessions t c).sessions.get? k = _
  rw [sessions_expireStaleSessions, Dict.get?_filter]

/-- `process_packet` after expiry. -/
def recordPacket (p : PacketData) (b : SessionBuilder) : TrafficSession × SessionBuilder :=
  let key := SessionKey.fromPacket p
  let b := openSession p b
  let session := ((b.sessions.get? key).getD (.opened p)).update p
  let b := { b with sessions := b.sessions.set key session }
  (session, if session.finished then markSessionForFinalPrediction key b else b)

/-- The per-packet protocol on a builder that has been swept. -/
def receive (p : PacketData) (b : SessionBuilder) : PacketReport × SessionBuilder :=
  let (session, b) := recordPacket p b
  let (predict, b) := shouldPredict p b
  let (flowEnd, b) := finalizeSessionIfNeeded p b
  (⟨session, [], predict, flowEnd⟩, b)

/-- Recording a packet leaves the sessions waiting to be handed out alone. -/
theorem drain_recordPacket (p : PacketData) (b : SessionBuilder) :
    recordPacket p (drainFinalizedSessions b).2 =
        ((recordPacket p b).1, (drainFinalizedSessions (recordPacket p b).2).2) ∧
      (drainFinalizedSessions (recordPacket p b).2).1 = (drainFinalizedSessions b).1 := by
  unfold recordPacket openSession markSessionForFinalPrediction drainFinalizedSessions
  simp only
  rcases em (SessionKey.fromPacket p ∈ b.sessions.keys) with h | h
  · simp only [if_pos h]
    cases b.predictionState.get? (SessionKey.fromPacket p) <;> split_ifs <;> exact ⟨rfl, rfl⟩
  · simp only [if_neg h, Dict.get?_set_self]
    split_ifs <;> exact ⟨rfl, rfl⟩

theorem perPacket_eq (p : PacketData) (b : SessionBuilder) :
    perPacket p b =
      ({ (receive p (sweep p.timestamp b).2).1 with expired := (sweep p.timestamp b).1 },
        (receive p (sweep p.timestamp b).2).2) := by
  obtain ⟨hrecord, hdrained⟩ := drain_recordPacket p (expireStaleSessions p.timestamp b)
  have hprocess : processPacket p b = recordPacket p (expireStaleSessions p.timestamp b) := rfl
  simp only [perPacket, hprocess, hdrained, receive, sweep, hrecord]

/-- The session of a packet after it is recorded, in a builder that has been
swept. -/
def sessionAfter (p : PacketData) (b : SessionBuilder) : TrafficSession :=
  ((b.sessions.get? (SessionKey.fromPacket p)).getD (.opened p)).update p

/-- What recording a packet does to the sessions: the session of its 5-tuple is
written, no other changes. -/
theorem recordPacket_sessions (p : PacketData) (b : SessionBuilder) :
    (recordPacket p b).1 = sessionAfter p b ∧
      (recordPacket p b).2.sessions =
        b.sessions.set (SessionKey.fromPacket p) (sessionAfter p b) := by
  have hmark : ∀ (k : SessionKey) (c : SessionBuilder),
      (markSessionForFinalPrediction k c).sessions = c.sessions := by
    intro k c
    unfold markSessionForFinalPrediction
    cases c.predictionState.get? k <;> rfl
  unfold recordPacket openSession sessionAfter
  simp only
  rcases em (SessionKey.fromPacket p ∈ b.sessions.keys) with h | h
  · rw [if_pos h]
    split_ifs
    · exact ⟨rfl, hmark _ _⟩
    · exact ⟨rfl, rfl⟩
  · have hnone : b.sessions.get? (SessionKey.fromPacket p) = none :=
      (Dict.get?_eq_none_iff _ _).mpr h
    rw [if_neg h, hnone]
    simp only [Dict.get?_set_self, Dict.set_set, Option.getD_some, Option.getD_none]
    split_ifs
    · exact ⟨trivial, hmark _ _⟩
    · exact ⟨trivial, rfl⟩

/-- The question moves the record of the packet's session on, or changes nothing. -/
theorem shouldPredict_cases (p : PacketData) (b : SessionBuilder) :
    (shouldPredict p b).2 = b ∨
      ∃ state, SessionKey.fromPacket p ∈ b.predictionState.keys ∧ (shouldPredict p b).2 =
        { b with predictionState := b.predictionState.set (.fromPacket p) state } := by
  unfold shouldPredict
  simp only
  cases b.sessions.get? (SessionKey.fromPacket p) with
  | none => exact Or.inl rfl
  | some session =>
    cases hstate : b.predictionState.get? (SessionKey.fromPacket p) with
    | none => exact Or.inl rfl
    | some state =>
      simp only
      split_ifs
      · exact Or.inr ⟨_, Dict.mem_keys_of_get? hstate, rfl⟩
      · exact Or.inl rfl

/-- The end of a session takes its record with it. -/
theorem finalizeSessionIfNeeded_cases (p : PacketData) (b : SessionBuilder) :
    (finalizeSessionIfNeeded p b).2 = b ∨ (finalizeSessionIfNeeded p b).2 =
      { b with
        predictionState := b.predictionState.erase (.fromPacket p)
        sessions := b.sessions.erase (.fromPacket p) } := by
  unfold finalizeSessionIfNeeded
  simp only
  cases b.sessions.get? (SessionKey.fromPacket p) with
  | none => exact Or.inl rfl
  | some session =>
    simp only
    split_ifs
    · exact Or.inr rfl
    · exact Or.inl rfl

theorem sessions_shouldPredict (p : PacketData) (b : SessionBuilder) :
    (shouldPredict p b).2.sessions = b.sessions := by
  rcases shouldPredict_cases p b with heq | ⟨state, -, heq⟩
  · rw [heq]
  · rw [heq]

theorem pending_recordPacket (p : PacketData) (b : SessionBuilder) :
    (recordPacket p b).2.pendingFinalizations = b.pendingFinalizations :=
  (drain_recordPacket p b).2

theorem pending_shouldPredict (p : PacketData) (b : SessionBuilder) :
    (shouldPredict p b).2.pendingFinalizations = b.pendingFinalizations := by
  rcases shouldPredict_cases p b with heq | ⟨state, -, heq⟩
  · rw [heq]
  · rw [heq]

theorem pending_finalizeSessionIfNeeded (p : PacketData) (b : SessionBuilder) :
    (finalizeSessionIfNeeded p b).2.pendingFinalizations = b.pendingFinalizations := by
  rcases finalizeSessionIfNeeded_cases p b with heq | heq
  · rw [heq]
  · rw [heq]

/-- What admitting a packet does to the sessions: it ends its session when that
has seen a FIN or RST packet, and keeps it otherwise. -/
structure Admitted (p : PacketData) (b : SessionBuilder) (report : PacketReport)
    (b' : SessionBuilder) : Prop where
  session : report.session = sessionAfter p b
  flowEnd : report.flowEnd =
    if (sessionAfter p b).finished then
      some ⟨sessionAfter p b, SessionKey.fromPacket p, .flowEnd⟩
    else none
  sessions : b'.sessions =
    if (sessionAfter p b).finished then b.sessions.erase (SessionKey.fromPacket p)
    else b.sessions.set (SessionKey.fromPacket p) (sessionAfter p b)

theorem admitted (p : PacketData) (b : SessionBuilder) :
    Admitted p b (receive p b).1 (receive p b).2 := by
  obtain ⟨hsession, hsessions⟩ := recordPacket_sessions p b
  have hpredict : (shouldPredict p (recordPacket p b).2).2.sessions =
      b.sessions.set (SessionKey.fromPacket p) (sessionAfter p b) :=
    (sessions_shouldPredict p _).trans hsessions
  have hget : (shouldPredict p (recordPacket p b).2).2.sessions.get? (SessionKey.fromPacket p) =
      some (sessionAfter p b) := by
    rw [hpredict, Dict.get?_set_self]
  simp only [receive, finalizeSessionIfNeeded, hget]
  split_ifs with hfinished
  · constructor
    · exact hsession
    · rw [if_pos hfinished]
    · rw [if_pos hfinished, hpredict, Dict.erase_set]
  · constructor
    · exact hsession
    · rw [if_neg hfinished]
    · rw [if_neg hfinished]
      exact hpredict

/-! ## Sessions and prediction states -/

/-- Every session has a prediction state, and nothing else has. -/
def SameKeys (b : SessionBuilder) : Prop := ∀ k, k ∈ b.predictionState.keys ↔ k ∈ b.sessions.keys

theorem SameKeys.sweep {b : SessionBuilder} (h : SameKeys b) (now : Time) :
    SameKeys (sweep now b).2 := by
  intro k
  have hstate : (SessionBuilder.sweep now b).2.predictionState =
      (staleKeys now b).foldl Dict.erase b.predictionState :=
    predictionState_expireStaleSessions now b
  have hsessions : (SessionBuilder.sweep now b).2.sessions =
      (staleKeys now b).foldl Dict.erase b.sessions := sessions_foldl_expireItem _ _
  rw [hstate, hsessions, ← Dict.get?_isSome_iff, ← Dict.get?_isSome_iff, Dict.get?_foldl_erase,
    Dict.get?_foldl_erase]
  split_ifs
  · rfl
  · rw [Dict.get?_isSome_iff, Dict.get?_isSome_iff]
    exact h k

theorem SameKeys.recordPacket {b : SessionBuilder} (h : SameKeys b) (p : PacketData) :
    SameKeys (recordPacket p b).2 := by
  have hmark : ∀ (j : SessionKey) (c : SessionBuilder) (k : SessionKey),
      k ∈ (markSessionForFinalPrediction j c).predictionState.keys ↔
        k ∈ c.predictionState.keys := by
    intro j c k
    unfold markSessionForFinalPrediction
    cases hstate : c.predictionState.get? j with
    | none => rfl
    | some state =>
      rw [Dict.mem_keys_set]
      constructor
      · rintro (rfl | hk)
        · exact Dict.mem_keys_of_get? hstate
        · exact hk
      · exact Or.inr
  have hopen : ∀ k, k ∈ (openSession p b).predictionState.keys ↔
      k = SessionKey.fromPacket p ∨ k ∈ b.sessions.keys := by
    intro k
    unfold openSession
    simp only
    split_ifs with hmem
    · rw [h k]
      constructor
      · exact Or.inr
      · rintro (rfl | hk)
        · exact hmem
        · exact hk
    · rw [Dict.mem_keys_set, h k]
  intro k
  rw [(recordPacket_sessions p b).2, Dict.mem_keys_set, ← hopen k]
  unfold SessionBuilder.recordPacket
  simp only
  split_ifs
  · rw [hmark]
  · rfl

theorem SameKeys.shouldPredict {b : SessionBuilder} (h : SameKeys b) (p : PacketData) :
    SameKeys (b.shouldPredict p).2 := by
  rcases shouldPredict_cases p b with heq | ⟨state, hmem, heq⟩
  · rw [heq]
    exact h
  · rw [heq]
    intro k
    rw [Dict.mem_keys_set, h k]
    exact or_iff_right_of_imp fun hk => hk ▸ (h _).mp hmem

theorem SameKeys.finalizeSessionIfNeeded {b : SessionBuilder} (h : SameKeys b)
    (p : PacketData) : SameKeys (b.finalizeSessionIfNeeded p).2 := by
  rcases finalizeSessionIfNeeded_cases p b with heq | heq
  · rw [heq]
    exact h
  · rw [heq]
    intro k
    rw [Dict.mem_keys_erase, Dict.mem_keys_erase, h k]

theorem SameKeys.receive {b : SessionBuilder} (h : SameKeys b) (p : PacketData) :
    SameKeys (receive p b).2 := by
  simp only [SessionBuilder.receive]
  exact ((h.recordPacket p).shouldPredict p).finalizeSessionIfNeeded p

/-! ## Restriction to a set of 5-tuples -/

/-- What a builder holds for the 5-tuples in `q`. -/
def restrict (q : SessionKey → Bool) (b : SessionBuilder) : SessionBuilder where
  sessions := b.sessions.restrict q
  predictionState := b.predictionState.restrict q
  pendingFinalizations := b.pendingFinalizations.filter fun f => q f.sessionKey

@[simp] theorem sessions_restrict (q : SessionKey → Bool) (b : SessionBuilder) :
    (b.restrict q).sessions = b.sessions.restrict q := rfl

@[simp] theorem predictionState_restrict (q : SessionKey → Bool) (b : SessionBuilder) :
    (b.restrict q).predictionState = b.predictionState.restrict q := rfl

@[simp] theorem pendingFinalizations_restrict (q : SessionKey → Bool) (b : SessionBuilder) :
    (b.restrict q).pendingFinalizations =
      b.pendingFinalizations.filter fun f => q f.sessionKey := rfl

theorem ext {b c : SessionBuilder} (hsessions : b.sessions = c.sessions)
    (hstate : b.predictionState = c.predictionState)
    (hpending : b.pendingFinalizations = c.pendingFinalizations) : b = c := by
  cases b
  cases c
  simp_all

theorem mem_staleKeys_restrict {q : SessionKey → Bool} {now : Time} {b : SessionBuilder}
    {k : SessionKey} (hq : q k = true) :
    k ∈ staleKeys now (b.restrict q) ↔ k ∈ staleKeys now b := by
  rw [mem_staleKeys, mem_staleKeys, sessions_restrict, Dict.get?_restrict_of_pos _ hq]

/-- Sweeping and restricting commute. -/
theorem restrict_expireStaleSessions (q : SessionKey → Bool) (now : Time) (b : SessionBuilder) :
    (expireStaleSessions now b).restrict q = expireStaleSessions now (b.restrict q) := by
  apply ext
  · apply Dict.ext
    rw [sessions_restrict, sessions_expireStaleSessions, sessions_expireStaleSessions,
      sessions_restrict]
    simp only [Dict.entries_restrict, Dict.filter, List.filter_filter]
    apply List.filter_congr
    intro e _
    exact Bool.and_comm _ _
  · apply Dict.ext
    rw [predictionState_restrict, Dict.entries_restrict, predictionState_expireStaleSessions,
      predictionState_expireStaleSessions, Dict.entries_foldl_erase, Dict.entries_foldl_erase,
      predictionState_restrict, Dict.entries_restrict, List.filter_filter, List.filter_filter]
    apply List.filter_congr
    intro e _
    cases hq : q e.1 with
    | false => simp
    | true => simp [mem_staleKeys_restrict hq]
  · rw [pendingFinalizations_restrict, pending_expireStaleSessions, pending_expireStaleSessions,
      pendingFinalizations_restrict, sessions_restrict, Dict.entries_restrict, List.filter_append,
      List.filter_filterMap, List.filterMap_filter]
    congr 1
    apply List.filterMap_congr
    intro e _
    unfold staleFinalized
    cases staleReason now e.2.startTime e.2.lastSeen with
    | none => simp
    | some reason => cases hq : q e.1 <;> simp [hq]

/-! ### Operations on a packet of one of the 5-tuples -/

variable {q : SessionKey → Bool} {p : PacketData}

theorem restrict_openSession (b : SessionBuilder) (hq : q (SessionKey.fromPacket p) = true) :
    (openSession p b).restrict q = openSession p (b.restrict q) := by
  unfold openSession
  have hmem : SessionKey.fromPacket p ∈ (b.restrict q).sessions.keys ↔
      SessionKey.fromPacket p ∈ b.sessions.keys := by
    rw [sessions_restrict, Dict.mem_keys_restrict]
    simp [hq]
  rcases em (SessionKey.fromPacket p ∈ b.sessions.keys) with h | h
  · rw [if_pos h, if_pos (hmem.mpr h)]
  · rw [if_neg h, if_neg (fun h' => h (hmem.mp h'))]
    simp only [restrict, Dict.restrict_set_of_pos _ _ hq]

theorem restrict_mark (b : SessionBuilder) {k : SessionKey} (hq : q k = true) :
    (markSessionForFinalPrediction k b).restrict q =
      markSessionForFinalPrediction k (b.restrict q) := by
  unfold markSessionForFinalPrediction
  rw [predictionState_restrict, Dict.get?_restrict_of_pos _ hq]
  cases b.predictionState.get? k with
  | none => rfl
  | some state => simp only [restrict, Dict.restrict_set_of_pos _ _ hq]

theorem fst_processPacket_restrict (b : SessionBuilder)
    (hq : q (SessionKey.fromPacket p) = true) :
    (processPacket p (b.restrict q)).1 = (processPacket p b).1 := by
  unfold processPacket
  simp only
  rw [← restrict_expireStaleSessions, ← restrict_openSession _ hq, sessions_restrict,
    Dict.get?_restrict_of_pos _ hq]

theorem restrict_processPacket (b : SessionBuilder) (hq : q (SessionKey.fromPacket p) = true) :
    (processPacket p b).2.restrict q = (processPacket p (b.restrict q)).2 := by
  unfold processPacket
  simp only
  rw [← restrict_expireStaleSessions, ← restrict_openSession _ hq, sessions_restrict,
    Dict.get?_restrict_of_pos _ hq]
  have hset : ∀ (c : SessionBuilder) (s : TrafficSession),
      { c with sessions := c.sessions.set (SessionKey.fromPacket p) s }.restrict q =
        { c.restrict q with
          sessions := (c.sessions.restrict q).set (SessionKey.fromPacket p) s } := by
    intro c s
    simp only [restrict, Dict.restrict_set_of_pos _ _ hq]
  split_ifs
  · rw [restrict_mark _ hq, hset]
  · rw [hset]

theorem shouldPredict_restrict (b : SessionBuilder) (hq : q (SessionKey.fromPacket p) = true) :
    shouldPredict p (b.restrict q) =
      ((shouldPredict p b).1, (shouldPredict p b).2.restrict q) := by
  unfold shouldPredict
  simp only [sessions_restrict, predictionState_restrict, Dict.get?_restrict_of_pos _ hq]
  cases b.sessions.get? (SessionKey.fromPacket p) with
  | none => rfl
  | some session =>
    cases b.predictionState.get? (SessionKey.fromPacket p) with
    | none => rfl
    | some state =>
      simp only
      split_ifs
      · simp only [restrict, Dict.restrict_set_of_pos _ _ hq]
      · rfl

theorem finalizeSessionIfNeeded_restrict (b : SessionBuilder)
    (hq : q (SessionKey.fromPacket p) = true) :
    finalizeSessionIfNeeded p (b.restrict q) =
      ((finalizeSessionIfNeeded p b).1, (finalizeSessionIfNeeded p b).2.restrict q) := by
  unfold finalizeSessionIfNeeded
  simp only [sessions_restrict, Dict.get?_restrict_of_pos _ hq]
  cases b.sessions.get? (SessionKey.fromPacket p) with
  | none => rfl
  | some session =>
    simp only
    split_ifs
    · simp only [restrict, Dict.restrict_erase]
    · rfl

/-! ### Operations on a packet of another 5-tuple -/

theorem restrict_openSession_of_neg (b : SessionBuilder)
    (hq : q (SessionKey.fromPacket p) = false) : (openSession p b).restrict q = b.restrict q := by
  unfold openSession
  simp only
  split_ifs
  · rfl
  · simp only [restrict, Dict.restrict_set_of_neg _ _ hq]

theorem restrict_processPacket_of_neg (b : SessionBuilder)
    (hq : q (SessionKey.fromPacket p) = false) :
    (processPacket p b).2.restrict q = expireStaleSessions p.timestamp (b.restrict q) := by
  have hmark : ∀ c : SessionBuilder,
      (markSessionForFinalPrediction (SessionKey.fromPacket p) c).restrict q = c.restrict q := by
    intro c
    unfold markSessionForFinalPrediction
    cases c.predictionState.get? (SessionKey.fromPacket p) with
    | none => rfl
    | some state => simp only [restrict, Dict.restrict_set_of_neg _ _ hq]
  have hset : ∀ (c : SessionBuilder) (s : TrafficSession),
      { c with sessions := c.sessions.set (SessionKey.fromPacket p) s }.restrict q =
        c.restrict q := by
    intro c s
    simp only [restrict, Dict.restrict_set_of_neg _ _ hq]
  rw [← restrict_expireStaleSessions]
  unfold processPacket
  simp only
  split_ifs
  · rw [hmark, hset, restrict_openSession_of_neg _ hq]
  · rw [hset, restrict_openSession_of_neg _ hq]

theorem restrict_shouldPredict_of_neg (b : SessionBuilder)
    (hq : q (SessionKey.fromPacket p) = false) :
    (shouldPredict p b).2.restrict q = b.restrict q := by
  rcases shouldPredict_cases p b with heq | ⟨state, -, heq⟩
  · rw [heq]
  · rw [heq]
    simp only [restrict, Dict.restrict_set_of_neg _ _ hq]

theorem restrict_finalizeSessionIfNeeded_of_neg (b : SessionBuilder)
    (hq : q (SessionKey.fromPacket p) = false) :
    (finalizeSessionIfNeeded p b).2.restrict q = b.restrict q := by
  rcases finalizeSessionIfNeeded_cases p b with heq | heq
  · rw [heq]
  · rw [heq]
    simp only [restrict, Dict.restrict_erase_of_neg _ hq]

/-! ### The per-packet protocol -/

theorem drainFinalizedSessions_restrict (b : SessionBuilder) :
    drainFinalizedSessions (b.restrict q) =
      ((drainFinalizedSessions b).1.filter fun f => q f.sessionKey,
        (drainFinalizedSessions b).2.restrict q) := rfl

@[simp] theorem pending_perPacket (p : PacketData) (b : SessionBuilder) :
    (perPacket p b).2.pendingFinalizations = [] := by
  simp only [perPacket, pending_finalizeSessionIfNeeded, pending_shouldPredict]
  rfl

/-- A packet of one of the 5-tuples: the restricted builder answers the same,
except that it hands out its own expired sessions only. -/
theorem perPacket_restrict (b : SessionBuilder) (hq : q (SessionKey.fromPacket p) = true) :
    perPacket p (b.restrict q) =
      ({ (perPacket p b).1 with
          expired := (perPacket p b).1.expired.filter fun f => q f.sessionKey },
        (perPacket p b).2.restrict q) := by
  simp only [perPacket, ← restrict_processPacket b hq, fst_processPacket_restrict b hq,
    drainFinalizedSessions_restrict, shouldPredict_restrict _ hq,
    finalizeSessionIfNeeded_restrict _ hq]

/-- A packet of another 5-tuple only sweeps. -/
theorem perPacket_restrict_of_neg (b : SessionBuilder)
    (hq : q (SessionKey.fromPacket p) = false) :
    sweep p.timestamp (b.restrict q) =
      ((perPacket p b).1.expired.filter fun f => q f.sessionKey, (perPacket p b).2.restrict q) := by
  simp only [perPacket, sweep, ← restrict_processPacket_of_neg b hq,
    drainFinalizedSessions_restrict, restrict_finalizeSessionIfNeeded_of_neg _ hq,
    restrict_shouldPredict_of_neg _ hq]

/-- The session a packet ends is its own. -/
theorem sessionKey_of_flowEnd {b : SessionBuilder} {f : Finalized}
    (h : (perPacket p b).1.flowEnd = some f) :
    f.sessionKey = SessionKey.fromPacket p ∧ f.reason = .flowEnd := by
  simp only [perPacket, finalizeSessionIfNeeded] at h
  revert h
  generalize ((shouldPredict p (drainFinalizedSessions (processPacket p b).2).2).2).sessions.get?
    (SessionKey.fromPacket p) = found
  cases found with
  | none => simp
  | some session =>
    simp only
    split_ifs
    · intro h
      rw [Option.some.injEq] at h
      rw [← h]
      exact ⟨rfl, rfl⟩
    · simp

end SessionBuilder

end SmartIDS.TrafficEngine
