import SmartIDS.TrafficEngine.BuilderSpec
set_option autoImplicit false

/-!
# TrafficEngine: when predictions are due

`should_predict` is asked once for every packet.  Its three triggers share a
record for each session, which `_mark_session_for_final_prediction` resets and
expiry drops.  In whatever order the time stamps arrive, the record is the last
prediction of the session, so that the answers of a session are neither too
dense nor too sparse.
-/

namespace SmartIDS.TrafficEngine

open SmartIDS.Foundation SmartIDS.PacketCapture

namespace SessionBuilder

/-- A packet, and whether the caller drains the expired sessions before it asks
and finishes the session of the packet afterwards. -/
structure Turn where
  packet : PacketData
  drains : Bool
  finishes : Bool

/-- One question to `should_predict`: the session of the packet when it is asked,
and the answer. -/
structure Ask where
  sessionKey : SessionKey
  session : TrafficSession
  answer : Bool

/-- The builder asked once for every packet. -/
def cadence : Machine SessionBuilder Turn Ask where
  step b turn :=
    let (session, b) := b.processPacket turn.packet
    let b := if turn.drains then b.drainFinalizedSessions.2 else b
    let (answer, b) := b.shouldPredict turn.packet
    let b := if turn.finishes then (b.finalizeSessionIfNeeded turn.packet).2 else b
    (b, ⟨.fromPacket turn.packet, session, answer⟩)

/-- The packet processor takes a turn that drains and finishes. -/
theorem cadence_step_eq_perPacket (b : SessionBuilder) (p : PacketData) :
    cadence.step b ⟨p, true, true⟩ =
      ((perPacket p b).2,
        ⟨.fromPacket p, (perPacket p b).1.session, (perPacket p b).1.predict⟩) := by
  simp only [cadence, perPacket, if_true]

/-- One question more about the session of a key.  A session that has one packet
has just been opened. -/
def Ask.note (k : SessionKey) (earlier : List Ask) (a : Ask) : List Ask :=
  if a.sessionKey = k then if a.session.packetCount = 1 then [a] else earlier ++ [a] else earlier

/-- The questions about the session of a key that was opened last. -/
def ofSession (asks : List Ask) (k : SessionKey) : List Ask := asks.foldl (Ask.note k) []

theorem ofSession_concat (asks : List Ask) (a : Ask) (k : SessionKey) :
    ofSession (asks ++ [a]) k = Ask.note k (ofSession asks k) a := by
  rw [ofSession, List.foldl_append]
  rfl

/-- The last question that was answered with yes. -/
def lastPrediction (asks : List Ask) : Option Ask := (asks.filter Ask.answer).getLast?

theorem lastPrediction_concat (asks : List Ask) (a : Ask) :
    lastPrediction (asks ++ [a]) = if a.answer then some a else lastPrediction asks := by
  unfold lastPrediction
  rw [List.filter_append, List.filter_singleton]
  cases a.answer with
  | true => exact List.getLast?_concat
  | false => rw [cond_false, List.append_nil, if_neg Bool.false_ne_true]

theorem mem_of_lastPrediction {asks : List Ask} {a : Ask} (h : lastPrediction asks = some a) :
    a ∈ asks ∧ a.answer = true := by
  have hmem := List.mem_of_getLast? h
  exact List.mem_filter.mp hmem

/-! ## The record of a session -/

/-- The record of a session after a packet, before the question is asked. -/
def stateAfter (p : PacketData) (b : SessionBuilder) : PredictionState :=
  let key := SessionKey.fromPacket p
  let state := if key ∈ b.sessions.keys then (b.predictionState.get? key).getD ⟨0, p.timestamp⟩
    else ⟨0, p.timestamp⟩
  if (sessionAfter p b).finished then { state with lastPredictionPacketCount := 0 } else state

theorem get?_predictionState_mark (k j : SessionKey) (b : SessionBuilder) :
    (markSessionForFinalPrediction k b).predictionState.get? j =
      if j = k then (b.predictionState.get? k).map fun state =>
        { state with lastPredictionPacketCount := 0 }
      else b.predictionState.get? j := by
  unfold markSessionForFinalPrediction
  cases hstate : b.predictionState.get? k with
  | none =>
    split_ifs with hj
    · rw [hj, hstate]
      rfl
    · rfl
  | some state => exact Dict.get?_set _ _ _ _

theorem get?_predictionState_open (p : PacketData) (b : SessionBuilder) (j : SessionKey) :
    (openSession p b).predictionState.get? j =
      if j = SessionKey.fromPacket p ∧ SessionKey.fromPacket p ∉ b.sessions.keys then
        some ⟨0, p.timestamp⟩
      else b.predictionState.get? j := by
  unfold openSession
  simp only
  split_ifs with hmem hboth hboth
  · exact absurd hmem hboth.2
  · rfl
  · rw [hboth.1, Dict.get?_set_self]
  · exact Dict.get?_set_of_ne _ _ fun hj => hboth ⟨hj, hmem⟩

theorem predictionState_recordPacket (p : PacketData) (b : SessionBuilder) :
    (recordPacket p b).2.predictionState =
      if (sessionAfter p b).finished then
        (markSessionForFinalPrediction (SessionKey.fromPacket p)
          (openSession p b)).predictionState
      else (openSession p b).predictionState := by
  rw [← (recordPacket_sessions p b).1]
  unfold recordPacket markSessionForFinalPrediction
  simp only
  split_ifs
  · cases (openSession p b).predictionState.get? (SessionKey.fromPacket p) <;> rfl
  · rfl

/-- What recording a packet does to the records: that of its session is written,
no other changes. -/
theorem get?_predictionState_recordPacket {p : PacketData} {b : SessionBuilder}
    (hkeys : SessionKey.fromPacket p ∈ b.sessions.keys →
      SessionKey.fromPacket p ∈ b.predictionState.keys) (j : SessionKey) :
    (recordPacket p b).2.predictionState.get? j =
      if j = SessionKey.fromPacket p then some (stateAfter p b) else b.predictionState.get? j := by
  have hopen : (openSession p b).predictionState.get? (SessionKey.fromPacket p) =
      some (if SessionKey.fromPacket p ∈ b.sessions.keys then
        (b.predictionState.get? (SessionKey.fromPacket p)).getD ⟨0, p.timestamp⟩
      else ⟨0, p.timestamp⟩) := by
    rw [get?_predictionState_open]
    split_ifs with hboth hmem hmem
    · exact absurd hmem hboth.2
    · rfl
    · obtain ⟨state, hstate⟩ := Dict.exists_get?_of_mem (hkeys hmem)
      rw [hstate, Option.getD_some]
    · exact absurd ⟨rfl, hmem⟩ hboth
  rw [predictionState_recordPacket]
  rcases eq_or_ne j (SessionKey.fromPacket p) with rfl | hj
  · rw [if_pos rfl, stateAfter]
    cases (sessionAfter p b).finished with
    | true =>
      rw [if_pos rfl, get?_predictionState_mark, if_pos rfl, hopen]
      rfl
    | false =>
      rw [if_neg Bool.false_ne_true]
      exact hopen
  · have hother : (openSession p b).predictionState.get? j = b.predictionState.get? j := by
      rw [get?_predictionState_open, if_neg fun hboth => hj hboth.1]
    rw [if_neg hj]
    split_ifs
    · rw [get?_predictionState_mark, if_neg hj, hother]
    · exact hother

/-- The question, where the session and its record are there. -/
theorem shouldPredict_of_some {p : PacketData} {b : SessionBuilder} {session : TrafficSession}
    {state : PredictionState} (hsession : b.sessions.get? (SessionKey.fromPacket p) = some session)
    (hstate : b.predictionState.get? (SessionKey.fromPacket p) = some state) :
    shouldPredict p b =
      (predictionDue session state,
        if predictionDue session state then
          { b with
            predictionState := b.predictionState.set (SessionKey.fromPacket p)
              ⟨session.packetCount, session.lastSeen⟩ }
        else b) := by
  unfold shouldPredict
  simp only [hsession, hstate]
  cases predictionDue session state <;> rfl

/-! ## The records along a run -/

/-- The record is the last prediction of the session. -/
def Recalls (asks : List Ask) (state : PredictionState) : Prop :=
  match lastPrediction asks with
  | none => state.lastPredictionPacketCount = 0
  | some a => state = ⟨a.session.packetCount, a.session.lastSeen⟩

/-- What the builder holds for a key, given the questions about it. -/
def Follows (asks : List Ask) : Option TrafficSession → Option PredictionState → Prop
  | some session, some state =>
    Recalls asks state ∧ 1 ≤ session.packetCount ∧ ∀ a ∈ asks, 1 ≤ a.session.packetCount
  | none, none => True
  | _, _ => False

/-- Every session has a record, which is its last prediction. -/
def Kept (asks : List Ask) (b : SessionBuilder) : Prop :=
  ∀ k, Follows (ofSession asks k) (b.sessions.get? k) (b.predictionState.get? k)

theorem kept_init : Kept [] init := fun _ => trivial

theorem Kept.sweep {asks : List Ask} {b : SessionBuilder} (h : Kept asks b) (now : Time) :
    Kept asks (expireStaleSessions now b) := by
  have hsessions : (expireStaleSessions now b).sessions =
      (staleKeys now b).foldl Dict.erase b.sessions := sessions_foldl_expireItem _ _
  intro k
  rw [hsessions, predictionState_expireStaleSessions, Dict.get?_foldl_erase,
    Dict.get?_foldl_erase]
  split_ifs
  · trivial
  · exact h k

/-! ## One question -/

theorem predictionDue_iff (session : TrafficSession) (state : PredictionState) :
    predictionDue session state = true ↔ session.finished = true ∨
      ((minPredictionPacketCount ≤ session.packetCount ∧ minPredictionAgeSeconds ≤ session.age) ∧
        (state.lastPredictionPacketCount = 0 ∨
          predictEveryNPackets ≤ (session.packetCount : ℤ) - state.lastPredictionPacketCount ∨
          predictEveryMSeconds ≤ session.lastSeen - state.lastPredictionTime)) := by
  simp only [predictionDue, Bool.or_eq_true, Bool.and_eq_true, decide_eq_true_eq, beq_iff_eq]
  constructor
  · rintro ((⟨⟨hage, hcount⟩, hfirst⟩ | ⟨⟨hage, hcount⟩, hperiodic⟩) | hfinished)
    · exact Or.inr ⟨⟨hcount, hage⟩, Or.inl hfirst⟩
    · exact Or.inr ⟨⟨hcount, hage⟩, Or.inr hperiodic⟩
    · exact Or.inl hfinished
  · rintro (hfinished | ⟨⟨hcount, hage⟩, hfirst | hperiodic⟩)
    · exact Or.inr hfinished
    · exact Or.inl (Or.inl ⟨⟨hage, hcount⟩, hfirst⟩)
    · exact Or.inl (Or.inr ⟨⟨hage, hcount⟩, hperiodic⟩)

/-- The cadence of an answer, given the earlier questions about the same session. -/
structure KeepsCadence (earlier : List Ask) (a : Ask) : Prop where
  notEarly : a.answer = true → a.session.finished = true ∨
    (minPredictionPacketCount ≤ a.session.packetCount ∧
      minPredictionAgeSeconds ≤ a.session.age)
  spaced : a.answer = true → a.session.finished = false →
    ∀ last, lastPrediction earlier = some last →
      predictEveryNPackets ≤ (a.session.packetCount : ℤ) - last.session.packetCount ∨
        predictEveryMSeconds ≤ a.session.lastSeen - last.session.lastSeen
  fresh : minPredictionPacketCount ≤ a.session.packetCount →
    minPredictionAgeSeconds ≤ a.session.age →
      a.answer = true ∨ ∃ last ∈ earlier, last.answer = true ∧
        (a.session.packetCount : ℤ) - last.session.packetCount < predictEveryNPackets ∧
        a.session.lastSeen - last.session.lastSeen < predictEveryMSeconds
  final : a.session.finished = true → a.answer = true

/-- An answer keeps the cadence if the record of an unfinished session is its last
prediction. -/
theorem keepsCadence_of_recalls {earlier : List Ask} {session : TrafficSession}
    {state : PredictionState} (k : SessionKey)
    (hcounts : ∀ a ∈ earlier, 1 ≤ a.session.packetCount)
    (hrecalls : session.finished = false → Recalls earlier state) :
    KeepsCadence earlier ⟨k, session, predictionDue session state⟩ where
  notEarly hdue := by
    rcases (predictionDue_iff session state).mp hdue with hfinished | ⟨hready, -⟩
    · exact Or.inl hfinished
    · exact Or.inr hready
  spaced hdue hunfinished last hlast := by
    have hstate := hrecalls hunfinished
    rw [Recalls, hlast] at hstate
    rw [hstate, predictionDue_iff] at hdue
    rcases hdue with hfinished | ⟨-, hfirst | hperiodic⟩
    · exact absurd (hunfinished.symm.trans hfinished) Bool.false_ne_true
    · have hcount := hcounts last (mem_of_lastPrediction hlast).1
      exact absurd hfirst (Nat.ne_of_gt hcount)
    · exact hperiodic
  fresh hcount hage := by
    cases hdue : predictionDue session state with
    | true => exact Or.inl rfl
    | false =>
      have hnot := mt (predictionDue_iff session state).mpr (by rw [hdue]; exact Bool.false_ne_true)
      rw [not_or, not_and] at hnot
      obtain ⟨hunfinished, hnot⟩ := hnot
      have hlate := hnot ⟨hcount, hage⟩
      rw [not_or, not_or] at hlate
      obtain ⟨hcounted, hpackets, hseconds⟩ := hlate
      have hstate := hrecalls (Bool.not_eq_true _ ▸ hunfinished)
      unfold Recalls at hstate
      cases hlast : lastPrediction earlier with
      | none =>
        rw [hlast] at hstate
        exact absurd hstate hcounted
      | some last =>
        rw [hlast] at hstate
        rw [hstate] at hpackets hseconds
        obtain ⟨hmem, hanswer⟩ := mem_of_lastPrediction hlast
        exact Or.inr ⟨last, hmem, hanswer, not_le.mp hpackets, not_le.mp hseconds⟩
  final hfinished := (predictionDue_iff session state).mpr (Or.inl hfinished)

/-- The earlier questions about the session a packet is recorded in. -/
def earlierAsks (asks : List Ask) (a : Ask) : List Ask :=
  if a.session.packetCount = 1 then [] else ofSession asks a.sessionKey

theorem ofSession_concat_self (asks : List Ask) (a : Ask) :
    ofSession (asks ++ [a]) a.sessionKey = earlierAsks asks a ++ [a] := by
  rw [ofSession_concat, Ask.note, if_pos rfl, earlierAsks]
  split_ifs <;> rfl

theorem ofSession_concat_of_ne (asks : List Ask) {a : Ask} {k : SessionKey}
    (hk : a.sessionKey ≠ k) : ofSession (asks ++ [a]) k = ofSession asks k := by
  rw [ofSession_concat, Ask.note, if_neg hk]

/-- Every session has a record. -/
theorem Kept.mem_keys_predictionState {asks : List Ask} {b : SessionBuilder} (h : Kept asks b)
    {k : SessionKey} (hmem : k ∈ b.sessions.keys) : k ∈ b.predictionState.keys := by
  obtain ⟨session, hsession⟩ := Dict.exists_get?_of_mem hmem
  have hfollows := h k
  rw [hsession] at hfollows
  cases hstate : b.predictionState.get? k with
  | none =>
    rw [hstate] at hfollows
    exact hfollows.elim
  | some state => exact Dict.mem_keys_of_get? hstate

/-- The session of a packet and its record, on a builder that has been swept. -/
theorem Kept.recorded {asks : List Ask} {b : SessionBuilder} (h : Kept asks b) (p : PacketData)
    (answer : Bool) :
    let earlier := earlierAsks asks ⟨.fromPacket p, sessionAfter p b, answer⟩
    1 ≤ (sessionAfter p b).packetCount ∧ (∀ a ∈ earlier, 1 ≤ a.session.packetCount) ∧
      ((sessionAfter p b).finished = false → Recalls earlier (stateAfter p b)) := by
  intro earlier
  have hkey := h (.fromPacket p)
  have hcount : (sessionAfter p b).packetCount =
      ((b.sessions.get? (.fromPacket p)).getD (.opened p)).packetCount + 1 :=
    TrafficSession.packetCount_update _ _
  cases hsession : b.sessions.get? (.fromPacket p) with
  | none =>
    -- the packet opens the session
    rw [hsession] at hcount
    have hearlier : earlier = [] := if_pos hcount
    have hmem : SessionKey.fromPacket p ∉ b.sessions.keys :=
      (Dict.get?_eq_none_iff _ _).mp hsession
    rw [hearlier]
    refine ⟨hcount.ge, fun a ha => absurd ha List.not_mem_nil, fun hunfinished => ?_⟩
    unfold stateAfter
    rw [hunfinished, if_neg Bool.false_ne_true, if_neg hmem]
    rfl
  | some session =>
    rw [hsession] at hkey hcount
    cases hstate : b.predictionState.get? (.fromPacket p) with
    | none =>
      rw [hstate] at hkey
      exact hkey.elim
    | some state =>
      rw [hstate] at hkey
      obtain ⟨hrecalls, hpositive, hcounts⟩ := hkey
      have hearlier : earlier = ofSession asks (.fromPacket p) := by
        refine if_neg fun hone => ?_
        rw [Option.getD_some] at hcount
        change (sessionAfter p b).packetCount = 1 at hone
        omega
      rw [hearlier]
      refine ⟨by rw [hcount]; exact Nat.le_add_left _ _, hcounts, fun hunfinished => ?_⟩
      unfold stateAfter
      rw [hunfinished, if_neg Bool.false_ne_true, if_pos (Dict.mem_keys_of_get? hsession), hstate]
      exact hrecalls

/-- What a builder holds for a key. -/
def holdings (b : SessionBuilder) (k : SessionKey) :
    Option TrafficSession × Option PredictionState :=
  (b.sessions.get? k, b.predictionState.get? k)

/-- Finishing the session of a packet drops it and its record. -/
theorem holdings_finalizeSessionIfNeeded {p : PacketData} {b : SessionBuilder}
    {session : TrafficSession} (hsession : b.sessions.get? (.fromPacket p) = some session)
    (j : SessionKey) :
    (finalizeSessionIfNeeded p b).2.holdings j =
      if j = .fromPacket p ∧ session.finished = true then (none, none) else b.holdings j := by
  unfold finalizeSessionIfNeeded
  simp only [hsession]
  cases session.finished with
  | true =>
    rw [if_pos rfl]
    unfold holdings
    simp only [Dict.get?_erase, and_true]
    split_ifs <;> rfl
  | false =>
    rw [if_neg Bool.false_ne_true, if_neg fun hboth => Bool.false_ne_true hboth.2]

/-- Asking writes the record of the session if the answer is yes. -/
theorem holdings_shouldPredict {p : PacketData} {b : SessionBuilder} {session : TrafficSession}
    {state : PredictionState} (hsession : b.sessions.get? (.fromPacket p) = some session)
    (hstate : b.predictionState.get? (.fromPacket p) = some state) (j : SessionKey) :
    (shouldPredict p b).2.holdings j =
      if j = .fromPacket p then
        (some session, some (if predictionDue session state then
          ⟨session.packetCount, session.lastSeen⟩ else state))
      else b.holdings j := by
  rw [shouldPredict_of_some hsession hstate]
  unfold holdings
  cases predictionDue session state with
  | true =>
    simp only [if_true, Dict.get?_set]
    split_ifs with hj
    · rw [hj, hsession]
    · rfl
  | false =>
    simp only [Bool.false_eq_true, if_false]
    split_ifs with hj
    · rw [hj, hsession, hstate]
    · rfl

/-- Draining, or not draining, leaves the sessions and their records alone. -/
theorem drained_unchanged (drains : Bool) (b : SessionBuilder) :
    (if drains then b.drainFinalizedSessions.2 else b).sessions = b.sessions ∧
      (if drains then b.drainFinalizedSessions.2 else b).predictionState = b.predictionState := by
  cases drains with
  | true => exact ⟨rfl, rfl⟩
  | false => exact ⟨rfl, rfl⟩

/-- One turn: the question that is asked, and what the builder holds after it. -/
theorem cadence_step {asks : List Ask} {b : SessionBuilder} (turn : Turn)
    (h : Kept asks (expireStaleSessions turn.packet.timestamp b)) :
    let p := turn.packet
    let swept := expireStaleSessions p.timestamp b
    let session := sessionAfter p swept
    let due := predictionDue session (stateAfter p swept)
    (cadence.step b turn).2 = ⟨.fromPacket p, session, due⟩ ∧
      ∀ j, (cadence.step b turn).1.holdings j =
        if j = .fromPacket p then
          if turn.finishes = true ∧ session.finished = true then (none, none)
          else (some session, some (if due then ⟨session.packetCount, session.lastSeen⟩
            else stateAfter p swept))
        else swept.holdings j := by
  intro p swept session due
  have hkeys : SessionKey.fromPacket p ∈ swept.sessions.keys →
      SessionKey.fromPacket p ∈ swept.predictionState.keys := h.mem_keys_predictionState
  have hprocess : b.processPacket p = recordPacket p swept := rfl
  have hreturned : (b.processPacket p).1 = session := by
    rw [hprocess]
    exact (recordPacket_sessions p swept).1
  have hrecorded : (b.processPacket p).2.sessions =
      swept.sessions.set (.fromPacket p) session := by
    rw [hprocess]
    exact (recordPacket_sessions p swept).2
  -- the builder that is asked
  obtain ⟨c, hc⟩ : ∃ c, c = if turn.drains then
      (b.processPacket p).2.drainFinalizedSessions.2 else (b.processPacket p).2 := ⟨_, rfl⟩
  obtain ⟨hsessions, hstates⟩ := drained_unchanged turn.drains (b.processPacket p).2
  rw [← hc, hrecorded] at hsessions
  rw [← hc, hprocess] at hstates
  have hsession : c.sessions.get? (.fromPacket p) = some session := by
    rw [hsessions, Dict.get?_set_self]
  have hstate : c.predictionState.get? (.fromPacket p) = some (stateAfter p swept) := by
    rw [hstates, get?_predictionState_recordPacket hkeys, if_pos rfl]
  have hasked := shouldPredict_of_some hsession hstate
  have hother : ∀ j, j ≠ .fromPacket p → c.holdings j = swept.holdings j := by
    intro j hj
    unfold holdings
    rw [hsessions, hstates, Dict.get?_set_of_ne _ _ hj, get?_predictionState_recordPacket hkeys,
      if_neg hj]
  have hstep : cadence.step b turn =
      (if turn.finishes then ((c.shouldPredict p).2.finalizeSessionIfNeeded p).2
        else (c.shouldPredict p).2, ⟨.fromPacket p, session, (c.shouldPredict p).1⟩) := by
    rw [hc, ← hreturned]
    rfl
  rw [hstep]
  refine ⟨by rw [hasked], fun j => ?_⟩
  have hpredicted := holdings_shouldPredict hsession hstate j
  have hkept : (c.shouldPredict p).2.sessions.get? (.fromPacket p) = some session := by
    rw [sessions_shouldPredict, hsession]
  have hfinal := holdings_finalizeSessionIfNeeded hkept j
  rcases eq_or_ne j (.fromPacket p) with hj | hj
  · rw [if_pos hj] at hpredicted ⊢
    cases turn.finishes with
    | false => exact hpredicted
    | true =>
      show ((c.shouldPredict p).2.finalizeSessionIfNeeded p).2.holdings j = _
      rw [hfinal]
      cases session.finished with
      | true => rw [if_pos ⟨hj, rfl⟩, if_pos ⟨rfl, rfl⟩]
      | false =>
        rw [if_neg fun hboth => Bool.false_ne_true hboth.2,
          if_neg fun hboth => Bool.false_ne_true hboth.2]
        exact hpredicted
  · rw [if_neg hj] at hpredicted ⊢
    rw [if_neg fun hboth => hj hboth.1] at hfinal
    show (if turn.finishes = true then _ else _ : SessionBuilder).holdings j = _
    split_ifs
    · rw [hfinal, hpredicted, hother j hj]
    · rw [hpredicted, hother j hj]

/-- After the question the record of the session is its last prediction again. -/
theorem follows_concat {earlier : List Ask} {session : TrafficSession} {state : PredictionState}
    (k : SessionKey) (hpositive : 1 ≤ session.packetCount)
    (hcounts : ∀ a ∈ earlier, 1 ≤ a.session.packetCount)
    (hrecalls : session.finished = false → Recalls earlier state) :
    Follows (earlier ++ [⟨k, session, predictionDue session state⟩]) (some session)
      (some (if predictionDue session state then ⟨session.packetCount, session.lastSeen⟩
        else state)) := by
  refine ⟨?_, hpositive, ?_⟩
  · unfold Recalls
    rw [lastPrediction_concat]
    cases hdue : predictionDue session state with
    | true => rw [if_pos rfl, if_pos rfl]
    | false =>
      rw [if_neg Bool.false_ne_true, if_neg Bool.false_ne_true]
      apply hrecalls
      rw [← Bool.not_eq_true]
      intro hfinished
      have hfinal := (predictionDue_iff session state).mpr (Or.inl hfinished)
      exact Bool.false_ne_true (hdue.symm.trans hfinal)
  · intro a ha
    rcases List.mem_append.mp ha with ha | ha
    · exact hcounts a ha
    · rw [List.mem_singleton.mp ha]
      exact hpositive

/-- One turn keeps the records and the cadence. -/
theorem Kept.turn {asks : List Ask} {b : SessionBuilder} (h : Kept asks b) (turn : Turn) :
    Kept (asks ++ [(cadence.step b turn).2]) (cadence.step b turn).1 ∧
      KeepsCadence (earlierAsks asks (cadence.step b turn).2) (cadence.step b turn).2 := by
  have hswept := h.sweep turn.packet.timestamp
  obtain ⟨hask, hholdings⟩ := cadence_step turn hswept
  obtain ⟨hpositive, hcounts, hrecalls⟩ := hswept.recorded turn.packet
    (predictionDue (sessionAfter turn.packet (expireStaleSessions turn.packet.timestamp b))
      (stateAfter turn.packet (expireStaleSessions turn.packet.timestamp b)))
  rw [hask]
  refine ⟨fun j => ?_, keepsCadence_of_recalls _ hcounts hrecalls⟩
  show Follows _ ((cadence.step b turn).1.holdings j).1 ((cadence.step b turn).1.holdings j).2
  rw [hholdings]
  rcases eq_or_ne j (.fromPacket turn.packet) with rfl | hne
  · rw [if_pos rfl]
    by_cases hdropped : turn.finishes = true ∧ (sessionAfter turn.packet
        (expireStaleSessions turn.packet.timestamp b)).finished = true
    · -- the session is dropped with its record
      rw [if_pos hdropped]
      trivial
    · rw [if_neg hdropped, ofSession_concat_self]
      exact follows_concat (.fromPacket turn.packet) hpositive hcounts hrecalls
  · rw [if_neg hne, ofSession_concat_of_ne asks hne.symm]
    exact hswept j

theorem kept_exec (turns : List Turn) :
    Kept (cadence.trace init turns) (cadence.exec init turns) := by
  induction turns using List.reverseRecOn with
  | nil => exact kept_init
  | append_singleton turns turn ih =>
    rw [Machine.trace_concat, Machine.exec_concat]
    exact (ih.turn turn).1

/-- Prediction cadence.  Whatever packets the builder was asked about before, and
whether or not its callers drain and finish sessions, the answer about the next
packet keeps the cadence of its session. -/
theorem prediction_cadence (turns : List Turn) (turn : Turn) :
    let ask := (cadence.step (cadence.exec init turns) turn).2
    KeepsCadence (earlierAsks (cadence.trace init turns) ask) ask :=
  ((kept_exec turns).turn turn).2

end SessionBuilder

end SmartIDS.TrafficEngine
