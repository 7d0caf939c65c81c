import SmartIDS.PacketCapture.PacketProcessor
import SmartIDS.ResponseEngine.BlockerSpec
import SmartIDS.TrafficEngine.BuilderSpec
set_option autoImplicit false

/-!
# PacketCapture: what processing a packet does

`process` never raises: its blocks last minutes.  Its two halves have one lemma
each, `assessed` and `advanced`, which say what they leave of every part of the
processor but the blocker and the block events.  What the firewall answers is
left open; neither the session updates nor the life of the alert state depends
on it.
-/

namespace SmartIDS.PacketCapture

open SmartIDS.Foundation SmartIDS.Python SmartIDS.ResponseEngine SmartIDS.ThreatDetection
  SmartIDS.TrafficEngine

namespace PacketProcessor

variable {Φ Ω : Type} {repr : Json → String}

/-- A call of `temp_block` with one of the policy's durations returns, and
changes the blocker only. -/
theorem tempBlock_ensures (fw : Option (FirewallAdapter Φ Ω)) (h : Host Ω) (ip : String)
    {duration : ℤ} (hday : duration ≤ 86400) (p : PacketProcessor Φ repr) :
    Effect.Ensures (onBlocker (AutoBlocker.tempBlock fw h ip duration)) p fun _ p' =>
      ∃ b, p' = { p with autoBlocker := b } :=
  Effect.Ensures.zoom ((AutoBlocker.tempBlock_ensures fw h ip hday p.autoBlocker).mono
    fun _ b _ => ⟨b, rfl⟩)

/-! ## The packet by itself -/

/-- What the responses to a packet by itself leave alone; the alerts they publish
belong to no session. -/
structure LeavesSessions (p p' : PacketProcessor Φ repr) : Prop where
  heuristicDetector : p'.heuristicDetector = p.heuristicDetector
  sessionBuilder : p'.sessionBuilder = p.sessionBuilder
  sessionAlertState : p'.sessionAlertState = p.sessionAlertState
  processedCommandStore : p'.processedCommandStore = p.processedCommandStore
  sessionUpdates : p'.sessionUpdates = p.sessionUpdates
  alerts : ∃ new, p'.alerts = p.alerts ++ new ∧ ∀ alert ∈ new, alert.sessionId = none

theorem LeavesSessions.refl (p : PacketProcessor Φ repr) : LeavesSessions p p :=
  ⟨rfl, rfl, rfl, rfl, rfl, [], (List.append_nil _).symm, fun _ h => absurd h List.not_mem_nil⟩

theorem LeavesSessions.trans {p q r : PacketProcessor Φ repr} (hpq : LeavesSessions p q)
    (hqr : LeavesSessions q r) : LeavesSessions p r := by
  obtain ⟨new, hnew, hnone⟩ := hpq.alerts
  obtain ⟨new', hnew', hnone'⟩ := hqr.alerts
  refine ⟨hqr.heuristicDetector.trans hpq.heuristicDetector,
    hqr.sessionBuilder.trans hpq.sessionBuilder,
    hqr.sessionAlertState.trans hpq.sessionAlertState,
    hqr.processedCommandStore.trans hpq.processedCommandStore,
    hqr.sessionUpdates.trans hpq.sessionUpdates, new ++ new', ?_, ?_⟩
  · rw [hnew', hnew, List.append_assoc]
  · exact List.forall_mem_append.mpr ⟨hnone, hnone'⟩

/-- A change of the blocker or of the published block events. -/
theorem LeavesSessions.of_blocker (p : PacketProcessor Φ repr) (b : AutoBlocker Φ)
    (policy : ResponsePolicy) (events : List BlockEvent) :
    LeavesSessions p
      { p with autoBlocker := b, responsePolicy := policy, blockEvents := events } :=
  ⟨rfl, rfl, rfl, rfl, rfl, [], (List.append_nil _).symm, fun _ h => absurd h List.not_mem_nil⟩

theorem LeavesSessions.publishAlert {alert : Alert} (hnone : alert.sessionId = none)
    (p : PacketProcessor Φ repr) : LeavesSessions p (publishAlert alert p) :=
  ⟨rfl, rfl, rfl, rfl, rfl, [alert], rfl, List.forall_mem_singleton.mpr hnone⟩

/-- A block request, the alert about it, and the block event if it was granted:
the common shape of both responses. -/
theorem blockAndAlert_ensures (fw : Option (FirewallAdapter Φ Ω)) (h : Host Ω) (ip : String)
    (duration : ℤ) (hday : duration ≤ 86400) (alert : Bool × String → Alert)
    (hnone : ∀ answer, (alert answer).sessionId = none) (event : BlockEvent)
    (rest : Bool × String → Action Φ repr Unit) (p : PacketProcessor Φ repr)
    (hrest : ∀ answer q, LeavesSessions p q →
      Effect.Ensures (rest answer) q fun _ p' => LeavesSessions p p') :
    Effect.Ensures (do
      let answer ← onBlocker (AutoBlocker.tempBlock fw h ip duration)
      Effect.modify (PacketProcessor.publishAlert (alert answer))
      if answer.1 then Effect.modify (publishBlockEvent event)
      rest answer) p fun _ p' => LeavesSessions p p' := by
  refine Effect.Ensures.bind ((tempBlock_ensures fw h ip hday p).mono fun answer q hq => ?_)
  obtain ⟨b, rfl⟩ := hq
  refine Effect.Ensures.bind (Effect.Ensures.modify ?_)
  have halert : LeavesSessions p (PacketProcessor.publishAlert (alert answer)
      { p with autoBlocker := b }) :=
    (LeavesSessions.of_blocker p b p.responsePolicy p.blockEvents).trans
      (LeavesSessions.publishAlert (hnone answer) _)
  obtain ⟨ok, status⟩ := answer
  cases ok with
  | true =>
    refine Effect.Ensures.bind (Effect.Ensures.modify (hrest _ _ (halert.trans ?_)))
    exact LeavesSessions.of_blocker _ _ _ _
  | false => exact hrest _ _ halert

theorem respondToHeuristic_ensures (fw : Option (FirewallAdapter Φ Ω)) (h : Host Ω)
    (packet : PacketData) (decision : HeuristicDecision) (p : PacketProcessor Φ repr) :
    Effect.Ensures (respondToHeuristic fw h packet decision) p fun _ p' => LeavesSessions p p' := by
  refine Effect.Ensures.bind (Effect.Ensures.modify ?_)
  have hnoted : LeavesSessions p
      (recordActivity packet.srcIp decision.reason "allowed" packet.timestamp p) :=
    LeavesSessions.of_blocker p _ p.responsePolicy p.blockEvents
  split_ifs
  · have hblock := blockAndAlert_ensures fw h packet.srcIp
      ResponsePolicy.highHeuristicBlockSeconds (by decide)
      (fun answer => packetAlert packet "heuristic_high_confidence"
        "Heuristic Suspicious Activity" (min (99 / 100) ((decision.score : ℚ) / 10)) answer
        ResponsePolicy.highHeuristicBlockSeconds) (fun _ => rfl)
      (packetBlockEvent packet "heuristic" "heuristic_high_confidence") (fun _ => pure ())
      (recordActivity packet.srcIp decision.reason "allowed" packet.timestamp p)
      fun _ q hq => Effect.Ensures.pure hq
    exact hblock.mono fun _ p' hp' => hnoted.trans hp'
  · exact Effect.Ensures.pure hnoted

theorem respondToBruteforce_ensures (fw : Option (FirewallAdapter Φ Ω)) (h : Host Ω)
    (packet : PacketData) (p : PacketProcessor Φ repr) :
    Effect.Ensures (respondToBruteforce fw h packet) p fun _ p' => LeavesSessions p p' := by
  refine blockAndAlert_ensures fw h packet.srcIp
    ResponsePolicy.bruteforceBlockSeconds (by decide)
    (fun answer => packetAlert packet "heuristic_bruteforce_detected" "Brute Force"
      (9 / 10) answer ResponsePolicy.bruteforceBlockSeconds) (fun _ => rfl)
    (packetBlockEvent packet "bruteforce" "bruteforce_detected") _ p fun answer q hq => ?_
  exact Effect.Ensures.modify (hq.trans (LeavesSessions.of_blocker _ _ _ _))

theorem respondToPacket_ensures (env : Platform Φ Ω) (a : Arrival Ω)
    (decision : HeuristicDecision) (bruteForceSuspected : Bool) (p : PacketProcessor Φ repr) :
    Effect.Ensures (respondToPacket env a decision bruteForceSuspected) p fun _ p' =>
      LeavesSessions p p' := by
  have hbruteforce : ∀ q : PacketProcessor Φ repr, LeavesSessions p q →
      Effect.Ensures (if bruteForceSuspected = true then
        respondToBruteforce env.firewall a.bruteforceHost a.packet else pure ()) q fun _ p' =>
          LeavesSessions p p' := by
    intro q hq
    split_ifs
    · exact (respondToBruteforce_ensures env.firewall a.bruteforceHost a.packet q).mono
        fun _ _ hp' => hq.trans hp'
    · exact Effect.Ensures.pure hq
  unfold respondToPacket
  simp only
  cases decision.suspicious with
  | true =>
    rw [if_pos rfl]
    exact Effect.Ensures.bind
      ((respondToHeuristic_ensures env.firewall a.heuristicHost a.packet decision p).mono
        fun _ q hq => hbruteforce q hq)
  | false =>
    rw [if_neg Bool.false_ne_true]
    exact hbruteforce p (LeavesSessions.refl p)

/-- The first lines touch the blocker only. -/
theorem noteSource_blocker (fw : Option (FirewallAdapter Φ Ω)) (h : Host Ω) (packet : PacketData)
    (p : PacketProcessor Φ repr) : ∃ b, noteSource fw h packet p = { p with autoBlocker := b } := by
  unfold noteSource
  simp only
  split_ifs <;> exact ⟨_, rfl⟩

/-- The first half of `process`. -/
structure Assessed (env : Platform Φ Ω) (packet : PacketData) (p : PacketProcessor Φ repr)
    (decision : HeuristicDecision) (p' : PacketProcessor Φ repr) : Prop where
  decision : decision = (p.heuristicDetector.evaluatePacket env.heuristic packet).2
  leaves : LeavesSessions { p with heuristicDetector :=
    (p.heuristicDetector.evaluatePacket env.heuristic packet).1 } p'

theorem assessed (env : Platform Φ Ω) (a : Arrival Ω) (p : PacketProcessor Φ repr) :
    Effect.Ensures (assessPacket env a) p fun decision p' =>
      Assessed env a.packet p decision p' := by
  obtain ⟨b, hb⟩ := noteSource_blocker env.firewall a.expiryHost a.packet p
  refine Effect.Ensures.bind (Effect.Ensures.modify ?_)
  rw [hb]
  refine Effect.Ensures.bind (Effect.Ensures.state ?_)
  refine Effect.Ensures.bind (Effect.Ensures.state ?_)
  refine Effect.Ensures.bind ((respondToPacket_ensures env a _ _ _).mono fun _ q hq => ?_)
  have hstart := LeavesSessions.of_blocker { p with heuristicDetector :=
    (p.heuristicDetector.evaluatePacket env.heuristic a.packet).1 } b
    (p.responsePolicy.recordBruteforceAttempt a.packet).2 p.blockEvents
  exact Effect.Ensures.pure ⟨rfl, hstart.trans hq⟩

/-! ## The alerts about sessions -/

/-- The part of the processor `_emit_session_alert` works on. -/
structure AlertBook where
  alerts : List Alert
  state : Dict String Signature

/-- The alerts and the alert state of a processor. -/
def alertBook (p : PacketProcessor Φ repr) : AlertBook := ⟨p.alerts, p.sessionAlertState⟩

/-- One call of `_emit_session_alert`. -/
structure AlertCall where
  key : SessionKey
  session : TrafficSession
  prediction : Prediction
  isFinal : Bool

/-- `_emit_session_alert` on the alert of a call, given the answer of the block
request before it. -/
def AlertBook.emit (call : AlertCall) (answer : Bool × String) (book : AlertBook) : AlertBook :=
  let alert := sessionAlert call.session call.prediction answer call.isFinal
  let id := sessionKeyStr call.key
  let previous := book.state.get? id
  if previous = some alert.signature ∧ ¬ call.isFinal then book
  else
    let updateType : UpdateType :=
      if call.isFinal then .final else if previous.isSome then .updated else .new
    let state := book.state.set id alert.signature
    { alerts := book.alerts ++ [{ alert with sessionId := some id, updateType := some updateType }]
      state := if call.isFinal then state.erase id else state }

theorem alertBook_emitSessionAlert (call : AlertCall) (answer : Bool × String)
    (p : PacketProcessor Φ repr) :
    alertBook (emitSessionAlert call.key
      (sessionAlert call.session call.prediction answer call.isFinal) call.isFinal p) =
      (alertBook p).emit call answer := by
  unfold emitSessionAlert AlertBook.emit alertBook
  simp only
  split_ifs <;> rfl

/-- The calls made one after the other, whatever the block requests answer. -/
inductive EmitsAll : List AlertCall → AlertBook → AlertBook → Prop where
  | nil (book : AlertBook) : EmitsAll [] book book
  | cons (call : AlertCall) (answer : Bool × String) {calls : List AlertCall}
      {book book' : AlertBook} (hrest : EmitsAll calls (book.emit call answer) book') :
      EmitsAll (call :: calls) book book'

theorem EmitsAll.append {calls calls' : List AlertCall} {book book' book'' : AlertBook}
    (h : EmitsAll calls book book') (h' : EmitsAll calls' book' book'') :
    EmitsAll (calls ++ calls') book book'' := by
  induction h with
  | nil book => exact h'
  | cons call answer hrest ih => exact .cons call answer (ih h')

/-- The call an answer of a model leads to. -/
def alertCall (key : SessionKey) (session : TrafficSession) (isFinal : Bool)
    (prediction : Option Prediction) : List AlertCall :=
  match prediction with
  | none => []
  | some prediction =>
    if shouldAlert prediction then [⟨key, session, prediction, isFinal⟩] else []

/-! ## The sessions the packet moves on -/

/-- What a part of the second half of `process` does: the builder it leaves, the
session updates it publishes and the alert calls it makes. -/
structure Progress (b : SessionBuilder) (updates : List SessionUpdate) (calls : List AlertCall)
    (p p' : PacketProcessor Φ repr) : Prop where
  heuristicDetector : p'.heuristicDetector = p.heuristicDetector
  processedCommandStore : p'.processedCommandStore = p.processedCommandStore
  sessionBuilder : p'.sessionBuilder = b
  sessionUpdates : p'.sessionUpdates = p.sessionUpdates ++ updates
  alertBook : EmitsAll calls p.alertBook p'.alertBook

theorem Progress.refl (p : PacketProcessor Φ repr) : Progress p.sessionBuilder [] [] p p :=
  ⟨rfl, rfl, rfl, (List.append_nil _).symm, .nil _⟩

theorem Progress.trans {b b' : SessionBuilder} {updates updates' : List SessionUpdate}
    {calls calls' : List AlertCall} {p q r : PacketProcessor Φ repr}
    (hpq : Progress b updates calls p q) (hqr : Progress b' updates' calls' q r) :
    Progress b' (updates ++ updates') (calls ++ calls') p r where
  heuristicDetector := hqr.heuristicDetector.trans hpq.heuristicDetector
  processedCommandStore := hqr.processedCommandStore.trans hpq.processedCommandStore
  sessionBuilder := hqr.sessionBuilder
  sessionUpdates := by rw [hqr.sessionUpdates, hpq.sessionUpdates, List.append_assoc]
  alertBook := hpq.alertBook.append hqr.alertBook

theorem onBuilder_ensures {α : Type} (f : SessionBuilder → α × SessionBuilder)
    (p : PacketProcessor Φ repr) :
    Effect.Ensures (onBuilder f) p fun x p' =>
      x = (f p.sessionBuilder).1 ∧ Progress (f p.sessionBuilder).2 [] [] p p' :=
  Effect.Ensures.state ⟨rfl, rfl, rfl, rfl, (List.append_nil _).symm, .nil _⟩

/-- A change of the blocker or of the published block events on top. -/
theorem Progress.note {b : SessionBuilder} {updates : List SessionUpdate}
    {calls : List AlertCall} {p q : PacketProcessor Φ repr} (h : Progress b updates calls p q)
    (blocker : AutoBlocker Φ) (events : List BlockEvent) :
    Progress b updates calls p { q with autoBlocker := blocker, blockEvents := events } :=
  ⟨h.heuristicDetector, h.processedCommandStore, h.sessionBuilder, h.sessionUpdates, h.alertBook⟩

theorem progress_emitSessionAlert (call : AlertCall) (answer : Bool × String)
    (p : PacketProcessor Φ repr) :
    Progress p.sessionBuilder [] [call] p (emitSessionAlert call.key
      (sessionAlert call.session call.prediction answer call.isFinal) call.isFinal p) := by
  have hbook := alertBook_emitSessionAlert call answer p
  have hframe : ∀ alert, (emitSessionAlert call.key alert call.isFinal p).heuristicDetector =
        p.heuristicDetector ∧
      (emitSessionAlert call.key alert call.isFinal p).processedCommandStore =
        p.processedCommandStore ∧
      (emitSessionAlert call.key alert call.isFinal p).sessionBuilder = p.sessionBuilder ∧
      (emitSessionAlert call.key alert call.isFinal p).sessionUpdates = p.sessionUpdates := by
    intro alert
    unfold emitSessionAlert
    simp only
    split_ifs <;> exact ⟨rfl, rfl, rfl, rfl⟩
  obtain ⟨hdetector, hstore, hbuilder, hupdates⟩ := hframe _
  refine ⟨hdetector, hstore, hbuilder, ?_, ?_⟩
  · rw [hupdates, List.append_nil]
  · rw [hbook]
    exact .cons call answer (.nil _)

theorem raiseSessionAlert_ensures (fw : Option (FirewallAdapter Φ Ω)) (h : Host Ω)
    (call : AlertCall) (p : PacketProcessor Φ repr) :
    Effect.Ensures (raiseSessionAlert fw h call.key call.session call.prediction call.isFinal) p
      fun _ p' => Progress p.sessionBuilder [] [call] p p' := by
  refine Effect.Ensures.bind ((tempBlock_ensures fw h call.session.srcIp (by decide) p).mono
    fun answer q hq => ?_)
  obtain ⟨b, rfl⟩ := hq
  refine Effect.Ensures.bind (Effect.Ensures.modify ?_)
  have hemit := ((Progress.refl p).note b p.blockEvents).trans
    (progress_emitSessionAlert call answer { p with autoBlocker := b })
  obtain ⟨ok, status⟩ := answer
  cases ok with
  | true => exact Effect.Ensures.bind (Effect.Ensures.modify
      (Effect.Ensures.modify ((hemit.note _ _).note _ _)))
  | false => exact Effect.Ensures.modify (hemit.note _ _)

theorem respondToPrediction_ensures (fw : Option (FirewallAdapter Φ Ω)) (h : Host Ω)
    (key : SessionKey) (session : TrafficSession) (isFinal : Bool)
    (prediction : Option Prediction) (p : PacketProcessor Φ repr) :
    Effect.Ensures (respondToPrediction fw h key session isFinal prediction) p fun _ p' =>
      Progress p.sessionBuilder [] (alertCall key session isFinal prediction) p p' := by
  cases prediction with
  | none => exact Effect.Ensures.pure (Progress.refl p)
  | some prediction =>
    unfold respondToPrediction alertCall
    simp only
    split_ifs
    · exact raiseSessionAlert_ensures fw h ⟨key, session, prediction, isFinal⟩ p
    · exact Effect.Ensures.pure (Progress.refl p)

/-- A session update is published and the alert the prediction calls for raised. -/
theorem publish_respond_ensures (fw : Option (FirewallAdapter Φ Ω)) (h : Host Ω)
    (key : SessionKey) (session : TrafficSession) (isFinal : Bool) (update : SessionUpdate)
    (prediction : Option Prediction) (p : PacketProcessor Φ repr) :
    Effect.Ensures (do
      Effect.modify (publishSessionUpdate update)
      respondToPrediction fw h key session isFinal prediction) p fun _ p' =>
        Progress p.sessionBuilder [update] (alertCall key session isFinal prediction) p p' := by
  refine Effect.Ensures.bind (Effect.Ensures.modify ?_)
  refine (respondToPrediction_ensures fw h key session isFinal prediction _).mono fun _ p' hp' => ?_
  have hpublish : Progress p.sessionBuilder [update] [] p (publishSessionUpdate update p) :=
    ⟨rfl, rfl, rfl, rfl, .nil _⟩
  exact hpublish.trans hp'

/-- The payload `_process_finalized_session` publishes. -/
def finalUpdate (prediction : Option Prediction) (decision : HeuristicDecision) (f : Finalized) :
    SessionUpdate :=
  buildSessionUpsertPayload f.sessionKey f.session f.reason.text prediction decision

theorem processFinalizedSession_ensures (fw : Option (FirewallAdapter Φ Ω)) (h : Host Ω)
    (prediction : Option Prediction) (decision : HeuristicDecision) (f : Finalized)
    (p : PacketProcessor Φ repr) :
    Effect.Ensures (processFinalizedSession fw h prediction decision f) p fun _ p' =>
      Progress p.sessionBuilder [finalUpdate prediction decision f]
        (alertCall f.sessionKey f.session true prediction) p p' :=
  publish_respond_ensures fw h f.sessionKey f.session true _ prediction p

/-- The session updates of one packet, in order. -/
def updatesOf (a : Arrival Ω) (decision : HeuristicDecision) (report : SessionBuilder.PacketReport) :
    List SessionUpdate :=
  report.expired.map (fun f => finalUpdate (a.expiredPrediction f.sessionKey) decision f) ++
    (if report.predict then
      [buildSessionUpsertPayload (.fromPacket a.packet) report.session "active" a.livePrediction
        decision]
    else []) ++
    report.flowEnd.toList.map (finalUpdate a.flowEndPrediction decision)

/-- The alert calls of one packet, in order. -/
def callsOf (a : Arrival Ω) (report : SessionBuilder.PacketReport) : List AlertCall :=
  report.expired.flatMap
      (fun f => alertCall f.sessionKey f.session true (a.expiredPrediction f.sessionKey)) ++
    (if report.predict then
      alertCall (.fromPacket a.packet) report.session false a.livePrediction
    else []) ++
    report.flowEnd.toList.flatMap
      (fun f => alertCall f.sessionKey f.session true a.flowEndPrediction)

/-- The loop over the expired sessions. -/
theorem forM_processFinalizedSession_ensures (env : Platform Φ Ω) (a : Arrival Ω)
    (decision : HeuristicDecision) (expired : List Finalized) (p : PacketProcessor Φ repr) :
    Effect.Ensures (expired.forM fun f =>
      processFinalizedSession env.firewall (a.expiredHost f.sessionKey)
        (a.expiredPrediction f.sessionKey) decision f) p fun _ p' =>
      Progress p.sessionBuilder
        (expired.map fun f => finalUpdate (a.expiredPrediction f.sessionKey) decision f)
        (expired.flatMap fun f =>
          alertCall f.sessionKey f.session true (a.expiredPrediction f.sessionKey)) p p' := by
  induction expired generalizing p with
  | nil => exact Effect.Ensures.pure (Progress.refl p)
  | cons f expired ih =>
    refine Effect.Ensures.bind ((processFinalizedSession_ensures _ _ _ decision f p).mono
      fun _ q hq => (ih q).mono fun _ p' hp' => ?_)
    have hboth := hq.trans hp'
    rwa [hq.sessionBuilder] at hboth

theorem finishSession_ensures (env : Platform Φ Ω) (a : Arrival Ω)
    (decision : HeuristicDecision) (p : PacketProcessor Φ repr) :
    Effect.Ensures (finishSession env a decision) p fun _ p' =>
      Progress (SessionBuilder.finalizeSessionIfNeeded a.packet p.sessionBuilder).2
        ((SessionBuilder.finalizeSessionIfNeeded a.packet p.sessionBuilder).1.toList.map
          (finalUpdate a.flowEndPrediction decision))
        ((SessionBuilder.finalizeSessionIfNeeded a.packet p.sessionBuilder).1.toList.flatMap
          fun f => alertCall f.sessionKey f.session true a.flowEndPrediction) p p' := by
  refine Effect.Ensures.bind ((onBuilder_ensures _ p).mono fun finalized q hq => ?_)
  obtain ⟨hfinalized, hq⟩ := hq
  rw [← hfinalized]
  cases finalized with
  | none => exact Effect.Ensures.pure hq
  | some f =>
    refine (processFinalizedSession_ensures env.firewall a.flowEndHost a.flowEndPrediction decision
      f q).mono fun _ p' hp' => ?_
    have hboth := hq.trans hp'
    rw [hq.sessionBuilder] at hboth
    simpa using hboth

theorem predictIfDue_ensures (env : Platform Φ Ω) (a : Arrival Ω) (session : TrafficSession)
    (decision : HeuristicDecision) (p : PacketProcessor Φ repr) :
    Effect.Ensures (predictIfDue env a session decision) p fun _ p' =>
      Progress (SessionBuilder.shouldPredict a.packet p.sessionBuilder).2
        (if (SessionBuilder.shouldPredict a.packet p.sessionBuilder).1 then
          [buildSessionUpsertPayload (.fromPacket a.packet) session "active" a.livePrediction
            decision]
        else [])
        (if (SessionBuilder.shouldPredict a.packet p.sessionBuilder).1 then
          alertCall (.fromPacket a.packet) session false a.livePrediction
        else []) p p' := by
  refine Effect.Ensures.bind ((onBuilder_ensures _ p).mono fun predict q hq => ?_)
  obtain ⟨hpredict, hq⟩ := hq
  rw [← hpredict]
  cases predict with
  | false => exact Effect.Ensures.pure hq
  | true =>
    refine (publish_respond_ensures env.firewall a.liveHost _ session false _ _ q).mono
      fun _ p' hp' => ?_
    have hboth := hq.trans hp'
    rwa [hq.sessionBuilder] at hboth

/-- The second half of `process`. -/
theorem advanced (env : Platform Φ Ω) (a : Arrival Ω) (decision : HeuristicDecision)
    (p : PacketProcessor Φ repr) :
    Effect.Ensures (advanceSessions env a decision) p fun _ p' =>
      Progress (SessionBuilder.perPacket a.packet p.sessionBuilder).2
        (updatesOf a decision (SessionBuilder.perPacket a.packet p.sessionBuilder).1)
        (callsOf a (SessionBuilder.perPacket a.packet p.sessionBuilder).1) p p' := by
  refine Effect.Ensures.bind ((onBuilder_ensures _ p).mono fun session p₁ h₁ => ?_)
  obtain ⟨rfl, h₁⟩ := h₁
  refine Effect.Ensures.bind ((onBuilder_ensures _ p₁).mono fun expired p₂ h₂ => ?_)
  obtain ⟨rfl, h₂⟩ := h₂
  refine Effect.Ensures.bind
    ((forM_processFinalizedSession_ensures env a decision _ p₂).mono fun _ p₃ h₃ => ?_)
  refine Effect.Ensures.bind ((predictIfDue_ensures env a _ decision p₃).mono fun _ p₄ h₄ => ?_)
  refine (finishSession_ensures env a decision p₄).mono fun _ p' h₅ => ?_
  have hall := (((h₁.trans h₂).trans h₃).trans h₄).trans h₅
  rw [h₄.sessionBuilder, h₃.sessionBuilder, h₂.sessionBuilder, h₁.sessionBuilder] at hall
  simp only [List.nil_append] at hall
  rw [SessionBuilder.perPacket_calls]
  simp only [updatesOf, callsOf]
  exact hall

/-- `process`: what one packet does. -/
structure Processed (env : Platform Φ Ω) (a : Arrival Ω) (p p' : PacketProcessor Φ repr) :
    Prop where
  heuristicDetector : p'.heuristicDetector =
    (p.heuristicDetector.evaluatePacket env.heuristic a.packet).1
  processedCommandStore : p'.processedCommandStore = p.processedCommandStore
  sessionBuilder : p'.sessionBuilder = (SessionBuilder.perPacket a.packet p.sessionBuilder).2
  sessionUpdates : p'.sessionUpdates = p.sessionUpdates ++
    updatesOf a (p.heuristicDetector.evaluatePacket env.heuristic a.packet).2
      (SessionBuilder.perPacket a.packet p.sessionBuilder).1
  alertBook : ∃ new, (∀ alert ∈ new, alert.sessionId = none) ∧
    EmitsAll (callsOf a (SessionBuilder.perPacket a.packet p.sessionBuilder).1)
      ⟨p.alerts ++ new, p.sessionAlertState⟩ p'.alertBook

theorem processed (env : Platform Φ Ω) (a : Arrival Ω) (p : PacketProcessor Φ repr) :
    Effect.Ensures (process env a) p fun _ p' => Processed env a p p' := by
  refine Effect.Ensures.bind ((assessed env a p).mono fun decision q hq => ?_)
  obtain ⟨rfl, hleaves⟩ := hq
  refine (advanced env a _ q).mono fun _ p' hp' => ?_
  obtain ⟨new, hnew, hnone⟩ := hleaves.alerts
  have hbuilder : q.sessionBuilder = p.sessionBuilder := hleaves.sessionBuilder
  rw [hbuilder] at hp'
  refine ⟨hp'.heuristicDetector.trans hleaves.heuristicDetector,
    hp'.processedCommandStore.trans hleaves.processedCommandStore, hp'.sessionBuilder, ?_,
    new, hnone, ?_⟩
  · rw [hp'.sessionUpdates, hleaves.sessionUpdates]
  · have hbook : q.alertBook = ⟨p.alerts ++ new, p.sessionAlertState⟩ := by
      rw [alertBook, hnew, hleaves.sessionAlertState]
    rw [← hbook]
    exact hp'.alertBook

/-- The state after a packet. -/
theorem processed_snd (env : Platform Φ Ω) (a : Arrival Ω) (p : PacketProcessor Φ repr) :
    Processed env a p (process env a p).2 := by
  obtain ⟨_, hprocessed⟩ := (processed env a p).snd
  exact hprocessed

end PacketProcessor

end SmartIDS.PacketCapture
