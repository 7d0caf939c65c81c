import SmartIDS.PacketCapture.BlockBook
import SmartIDS.PacketCapture.CommandReplay
set_option autoImplicit false

/-!
# PacketCapture: do the block events tell the truth?

Every block the engine grants or lifts on request is announced by an event.  A
block that runs out is not: the sweeps of `expire_blocks` drop its deadline and
publish nothing.  The events agree with the ledger as long as no call meets a
deadline that has passed, and no command leaves a block behind when it raises.
-/

namespace SmartIDS.PacketCapture

open SmartIDS.Foundation SmartIDS.Python SmartIDS.ResponseEngine SmartIDS.ThreatDetection
  SmartIDS.TrafficEngine BackendCommand Request

variable {Φ Ω : Type} {repr : Json → String}

/-! ## The requests of one packet -/

/-- The request a call of `temp_block` makes; one for an address that is not
routable is turned down before it sweeps. -/
def requestFor (h : Host Ω) (ip : String) (duration : ℤ) : List (Request Ω) :=
  if AutoBlocker.isValidRoutableIp ip then [⟨h, ip, duration⟩] else []

/-- The requests about the packet itself. -/
def heuristicRequests (h : Host Ω) (packet : PacketData) (decision : HeuristicDecision) :
    List (Request Ω) :=
  if decision.suspicious ∧
      ResponsePolicy.classifyHeuristicAction decision.score = .highTempBlock then
    requestFor h packet.srcIp ResponsePolicy.highHeuristicBlockSeconds
  else []

def bruteforceRequests (h : Host Ω) (packet : PacketData) (suspected : Bool) :
    List (Request Ω) :=
  if suspected then requestFor h packet.srcIp ResponsePolicy.bruteforceBlockSeconds else []

/-- The request a prediction about a session leads to. -/
def predictionRequests (h : Host Ω) (session : TrafficSession) (prediction : Option Prediction) :
    List (Request Ω) :=
  match prediction with
  | none => []
  | some prediction =>
    if PacketProcessor.shouldAlert prediction then
      requestFor h session.srcIp ResponsePolicy.mlConfirmedBlockSeconds
    else []

/-- The requests about the sessions a packet moves on. -/
def sessionRequests (a : Arrival Ω) (report : SessionBuilder.PacketReport) : List (Request Ω) :=
  report.expired.flatMap (fun f => predictionRequests (a.expiredHost f.sessionKey) f.session
      (a.expiredPrediction f.sessionKey)) ++
    (if report.predict then predictionRequests a.liveHost report.session a.livePrediction
    else []) ++
    report.flowEnd.toList.flatMap fun f =>
      predictionRequests a.flowEndHost f.session a.flowEndPrediction

/-- The requests of one call of `process`, in order. -/
def requestsOf (env : Platform Φ Ω) (a : Arrival Ω) (p : PacketProcessor Φ repr) :
    List (Request Ω) :=
  heuristicRequests a.heuristicHost a.packet
      (p.heuristicDetector.evaluatePacket env.heuristic a.packet).2 ++
    bruteforceRequests a.bruteforceHost a.packet
      (p.responsePolicy.recordBruteforceAttempt a.packet).1 ++
    sessionRequests a (SessionBuilder.perPacket a.packet p.sessionBuilder).1

namespace PacketProcessor

/-- The ledger and the events of a processor. -/
def blockBook (p : PacketProcessor Φ repr) : BlockBook := ⟨p.autoBlocker.blockedUntil, p.blockEvents⟩

/-! ## What `process` does to the book -/

theorem tempBlock_book (fw : Option (FirewallAdapter Φ Ω)) (h : Host Ω) (ip : String)
    {duration : ℤ} (hday : duration ≤ 86400) (p : PacketProcessor Φ repr) :
    Effect.Ensures (onBlocker (AutoBlocker.tempBlock fw h ip duration)) p fun answer p' =>
      ∃ b, p' = { p with autoBlocker := b } ∧
        AutoBlocker.Requested fw h ip duration p.autoBlocker answer.1 b.blockedUntil := by
  refine Effect.Ensures.zoom ((AutoBlocker.tempBlock_requested fw h ip ?_).mono
    fun answer b hb => ⟨b, rfl, hb⟩)
  exact fun _ => AutoBlocker.recordable_of_day h hday

theorem blockBook_publishBlockEvent (event : BlockEvent) (p : PacketProcessor Φ repr) :
    (publishBlockEvent event p).blockBook =
      ⟨p.blockBook.ledger, p.blockBook.events ++ [event]⟩ := rfl

/-- A block request and what follows it: an alert, the event if it was granted,
and a note.  The alert and the note leave the book alone. -/
theorem blockAndPublish_book (fw : Option (FirewallAdapter Φ Ω)) (h : Host Ω) (ip : String)
    {duration : ℤ} (hday : duration ≤ 86400)
    (alert : Bool × String → PacketProcessor Φ repr → PacketProcessor Φ repr)
    (halert : ∀ answer q, (alert answer q).blockBook = q.blockBook) (event : BlockEvent)
    (hsource : event.sourceIp = ip) (haction : event.actionTaken = "blocked")
    (note : Bool × String → Action Φ repr Unit)
    (hnote : ∀ answer q, Effect.Ensures (note answer) q fun _ p' => p'.blockBook = q.blockBook)
    (p : PacketProcessor Φ repr) :
    Effect.Ensures (do
      let answer ← onBlocker (AutoBlocker.tempBlock fw h ip duration)
      Effect.modify (alert answer)
      if answer.1 then Effect.modify (publishBlockEvent event)
      note answer) p fun _ p' =>
        AllAnswered (requestFor h ip duration) p.blockBook p'.blockBook := by
  refine Effect.Ensures.bind ((tempBlock_book fw h ip hday p).mono fun answer q hq => ?_)
  obtain ⟨b, rfl, hledger⟩ := hq
  refine Effect.Ensures.bind (Effect.Ensures.modify ?_)
  obtain ⟨ok, status⟩ := answer
  have hbook := halert (ok, status) { p with autoBlocker := b }
  have hsame : ∀ book : BlockBook, AllAnswered (requestFor h ip duration) p.blockBook book →
      ∀ q : PacketProcessor Φ repr, q.blockBook = book →
        Effect.Ensures (note (ok, status)) q fun _ p' =>
          AllAnswered (requestFor h ip duration) p.blockBook p'.blockBook := by
    intro book hanswered q hq
    refine (hnote (ok, status) q).mono fun _ p' hp' => ?_
    rw [hp', hq]
    exact hanswered
  cases ok with
  | true =>
    refine Effect.Ensures.bind (Effect.Ensures.modify (hsame
      ⟨b.blockedUntil, p.blockEvents ++ [event]⟩ ?_ _ ?_))
    · generalize b.blockedUntil = ledger at hledger
      cases hledger with
      | granted hip hfw =>
        rw [requestFor, if_pos hip]
        exact .single (Answered.granted (r := ⟨h, ip, duration⟩) p.blockBook hsource haction)
    · rw [blockBook_publishBlockEvent, hbook]
      rfl
  | false =>
    refine hsame ⟨b.blockedUntil, p.blockEvents⟩ ?_ _ hbook
    generalize b.blockedUntil = ledger at hledger
    cases hledger with
    | unasked hnone =>
      unfold requestFor
      split_ifs
      · exact .single (.unasked _)
      · exact .nil _
    | refused hip hfw =>
      rw [requestFor, if_pos hip]
      exact .single (.refused p.blockBook)

theorem respondToHeuristic_book (fw : Option (FirewallAdapter Φ Ω)) (h : Host Ω)
    (packet : PacketData) {decision : HeuristicDecision} (hsuspicious : decision.suspicious = true)
    (p : PacketProcessor Φ repr) :
    Effect.Ensures (respondToHeuristic fw h packet decision) p fun _ p' =>
      AllAnswered (heuristicRequests h packet decision) p.blockBook p'.blockBook := by
  refine Effect.Ensures.bind (Effect.Ensures.modify ?_)
  unfold heuristicRequests
  rcases em (ResponsePolicy.classifyHeuristicAction decision.score = .highTempBlock) with
    hhigh | hhigh
  · rw [if_pos hhigh, if_pos ⟨hsuspicious, hhigh⟩]
    exact blockAndPublish_book fw h packet.srcIp (by decide)
      (fun answer => publishAlert (packetAlert packet "heuristic_high_confidence"
        "Heuristic Suspicious Activity" (min (99 / 100) ((decision.score : ℚ) / 10)) answer
        ResponsePolicy.highHeuristicBlockSeconds)) (fun _ _ => rfl)
      (packetBlockEvent packet "heuristic" "heuristic_high_confidence") rfl rfl
      (fun _ => pure ()) (fun _ _ => Effect.Ensures.pure rfl)
      (recordActivity packet.srcIp decision.reason "allowed" packet.timestamp p)
  · rw [if_neg hhigh, if_neg fun hboth => hhigh hboth.2]
    exact Effect.Ensures.pure (.nil _)

theorem respondToBruteforce_book (fw : Option (FirewallAdapter Φ Ω)) (h : Host Ω)
    (packet : PacketData) (p : PacketProcessor Φ repr) :
    Effect.Ensures (respondToBruteforce fw h packet) p fun _ p' =>
      AllAnswered (requestFor h packet.srcIp ResponsePolicy.bruteforceBlockSeconds) p.blockBook
        p'.blockBook :=
  blockAndPublish_book fw h packet.srcIp (by decide)
    (fun answer => publishAlert (packetAlert packet "heuristic_bruteforce_detected"
      "Brute Force" (9 / 10) answer ResponsePolicy.bruteforceBlockSeconds)) (fun _ _ => rfl)
    (packetBlockEvent packet "bruteforce" "bruteforce_detected") rfl rfl
    (fun answer => Effect.modify (recordActivity packet.srcIp "Brute Force"
      (if answer.1 then "blocked" else "allowed") packet.timestamp))
    (fun _ _ => Effect.Ensures.modify rfl) p

theorem respondToPacket_book (env : Platform Φ Ω) (a : Arrival Ω) (decision : HeuristicDecision)
    (suspected : Bool) (p : PacketProcessor Φ repr) :
    Effect.Ensures (respondToPacket env a decision suspected) p fun _ p' =>
      AllAnswered (heuristicRequests a.heuristicHost a.packet decision ++
        bruteforceRequests a.bruteforceHost a.packet suspected) p.blockBook p'.blockBook := by
  have hbruteforce : ∀ q : PacketProcessor Φ repr,
      Effect.Ensures (if suspected = true then
        respondToBruteforce env.firewall a.bruteforceHost a.packet else pure ()) q fun _ p' =>
          AllAnswered (bruteforceRequests a.bruteforceHost a.packet suspected) q.blockBook
            p'.blockBook := by
    intro q
    unfold bruteforceRequests
    split_ifs
    · exact respondToBruteforce_book env.firewall a.bruteforceHost a.packet q
    · exact Effect.Ensures.pure (.nil _)
  unfold respondToPacket
  simp only
  cases hsuspicious : decision.suspicious with
  | true =>
    rw [if_pos rfl]
    exact Effect.Ensures.bind
      ((respondToHeuristic_book env.firewall a.heuristicHost a.packet hsuspicious p).mono
        fun _ q hq => (hbruteforce q).mono fun _ p' hp' => hq.append hp')
  | false =>
    have hnone : heuristicRequests a.heuristicHost a.packet decision = [] := by
      rw [heuristicRequests, if_neg fun hboth => absurd (hsuspicious.symm.trans hboth.1) (by simp)]
    rw [if_neg Bool.false_ne_true, hnone, List.nil_append]
    exact hbruteforce p

theorem blockBook_noteSource (fw : Option (FirewallAdapter Φ Ω)) (h : Host Ω)
    (packet : PacketData) (p : PacketProcessor Φ repr) :
    (noteSource fw h packet p).blockBook =
      if fw.isSome then p.blockBook.sweep h.clock.expireTime else p.blockBook := by
  have hexpired : (noteSource fw h packet p).blockBook =
      ⟨(p.autoBlocker.expireBlocks fw h).blockedUntil, p.blockEvents⟩ := by
    unfold noteSource
    simp only
    split_ifs <;> rfl
  rw [hexpired]
  cases fw with
  | none => rfl
  | some fw =>
    rw [AutoBlocker.blockedUntil_expireBlocks]
    rfl

/-- The first half of `process`: the sweep, then the requests about the packet. -/
theorem assessPacket_book (env : Platform Φ Ω) (a : Arrival Ω) (p : PacketProcessor Φ repr) :
    Effect.Ensures (assessPacket env a) p fun _ p' =>
      AllAnswered (heuristicRequests a.heuristicHost a.packet
          (p.heuristicDetector.evaluatePacket env.heuristic a.packet).2 ++
        bruteforceRequests a.bruteforceHost a.packet
          (p.responsePolicy.recordBruteforceAttempt a.packet).1)
        (if env.firewall.isSome then p.blockBook.sweep a.expiryHost.clock.expireTime
        else p.blockBook) p'.blockBook := by
  have hbook := blockBook_noteSource env.firewall a.expiryHost a.packet p
  obtain ⟨b, hb⟩ := noteSource_blocker env.firewall a.expiryHost a.packet p
  rw [hb] at hbook
  refine Effect.Ensures.bind (Effect.Ensures.modify ?_)
  rw [hb]
  refine Effect.Ensures.bind (Effect.Ensures.state ?_)
  refine Effect.Ensures.bind (Effect.Ensures.state ?_)
  refine Effect.Ensures.bind ((respondToPacket_book env a _ _ _).mono fun _ q hq => ?_)
  rw [← hbook]
  exact Effect.Ensures.pure hq

/-! ### The sessions -/

/-- What a part of the second half of `process` does: the builder it leaves and
the requests it makes. -/
structure Requests (b : SessionBuilder) (rs : List (Request Ω)) (p p' : PacketProcessor Φ repr) :
    Prop where
  sessionBuilder : p'.sessionBuilder = b
  answered : AllAnswered rs p.blockBook p'.blockBook

theorem Requests.trans {b b' : SessionBuilder} {rs rs' : List (Request Ω)}
    {p q r : PacketProcessor Φ repr} (hpq : Requests b rs p q) (hqr : Requests b' rs' q r) :
    Requests b' (rs ++ rs') p r :=
  ⟨hqr.sessionBuilder, hpq.answered.append hqr.answered⟩

variable (Ω) in
theorem onBuilder_requests {α : Type} (f : SessionBuilder → α × SessionBuilder)
    (p : PacketProcessor Φ repr) :
    Effect.Ensures (onBuilder f) p fun x p' =>
      x = (f p.sessionBuilder).1 ∧
        Requests (f p.sessionBuilder).2 ([] : List (Request Ω)) p p' :=
  Effect.Ensures.state ⟨rfl, rfl, .nil _⟩

theorem blockBook_emitSessionAlert (key : SessionKey) (alert : Alert) (isFinal : Bool)
    (p : PacketProcessor Φ repr) : (emitSessionAlert key alert isFinal p).blockBook = p.blockBook := by
  unfold emitSessionAlert
  simp only
  split_ifs <;> rfl

theorem raiseSessionAlert_book (fw : Option (FirewallAdapter Φ Ω)) (h : Host Ω) (key : SessionKey)
    (session : TrafficSession) (prediction : Prediction) (isFinal : Bool)
    (p : PacketProcessor Φ repr) :
    Effect.Ensures (raiseSessionAlert fw h key session prediction isFinal) p fun _ p' =>
      AllAnswered (requestFor h session.srcIp ResponsePolicy.mlConfirmedBlockSeconds) p.blockBook
        p'.blockBook :=
  blockAndPublish_book fw h session.srcIp (by decide)
    (fun answer => emitSessionAlert key (sessionAlert session prediction answer isFinal)
      isFinal) (fun _ _ => blockBook_emitSessionAlert _ _ _ _)
    (sessionBlockEvent key session prediction.label isFinal) rfl rfl
    (fun answer => Effect.modify (recordActivity session.srcIp prediction.label
      (if answer.1 then "blocked" else "allowed") session.lastSeen))
    (fun _ _ => Effect.Ensures.modify rfl) p

theorem respondToPrediction_requests (fw : Option (FirewallAdapter Φ Ω)) (h : Host Ω)
    (key : SessionKey) (session : TrafficSession) (isFinal : Bool)
    (prediction : Option Prediction) (p : PacketProcessor Φ repr) :
    Effect.Ensures (respondToPrediction fw h key session isFinal prediction) p fun _ p' =>
      Requests p.sessionBuilder (predictionRequests h session prediction) p p' := by
  have hbook : Effect.Ensures (respondToPrediction fw h key session isFinal prediction) p
      fun _ p' => AllAnswered (predictionRequests h session prediction) p.blockBook
        p'.blockBook := by
    cases prediction with
    | none => exact Effect.Ensures.pure (.nil _)
    | some prediction =>
      unfold respondToPrediction predictionRequests
      simp only
      split_ifs
      · exact raiseSessionAlert_book fw h key session prediction isFinal p
      · exact Effect.Ensures.pure (.nil _)
  exact ((respondToPrediction_ensures fw h key session isFinal prediction p).and hbook).mono
    fun _ _ hboth => ⟨hboth.1.sessionBuilder, hboth.2⟩

theorem publish_respond_requests (fw : Option (FirewallAdapter Φ Ω)) (h : Host Ω)
    (key : SessionKey) (session : TrafficSession) (isFinal : Bool) (update : SessionUpdate)
    (prediction : Option Prediction) (p : PacketProcessor Φ repr) :
    Effect.Ensures (do
      Effect.modify (publishSessionUpdate update)
      respondToPrediction fw h key session isFinal prediction) p fun _ p' =>
        Requests p.sessionBuilder (predictionRequests h session prediction) p p' := by
  have hrespond := respondToPrediction_requests fw h key session isFinal prediction
    (publishSessionUpdate update p)
  exact Effect.Ensures.bind (Effect.Ensures.modify
    (hrespond.mono fun _ _ hp' => ⟨hp'.sessionBuilder, hp'.answered⟩))

/-- The loop over the expired sessions. -/
theorem forM_processFinalizedSession_requests (env : Platform Φ Ω) (a : Arrival Ω)
    (decision : HeuristicDecision) (expired : List Finalized) (p : PacketProcessor Φ repr) :
    Effect.Ensures (expired.forM fun f =>
      processFinalizedSession env.firewall (a.expiredHost f.sessionKey)
        (a.expiredPrediction f.sessionKey) decision f) p fun _ p' =>
      Requests p.sessionBuilder
        (expired.flatMap fun f => predictionRequests (a.expiredHost f.sessionKey) f.session
          (a.expiredPrediction f.sessionKey)) p p' := by
  induction expired generalizing p with
  | nil => exact Effect.Ensures.pure ⟨rfl, .nil _⟩
  | cons f expired ih =>
    refine Effect.Ensures.bind ((publish_respond_requests env.firewall (a.expiredHost f.sessionKey)
      f.sessionKey f.session true _ (a.expiredPrediction f.sessionKey) p).mono
      fun _ q hq => (ih q).mono fun _ p' hp' => ?_)
    have hboth := hq.trans hp'
    rwa [hq.sessionBuilder] at hboth

theorem predictIfDue_requests (env : Platform Φ Ω) (a : Arrival Ω) (session : TrafficSession)
    (decision : HeuristicDecision) (p : PacketProcessor Φ repr) :
    Effect.Ensures (predictIfDue env a session decision) p fun _ p' =>
      Requests (SessionBuilder.shouldPredict a.packet p.sessionBuilder).2
        (if (SessionBuilder.shouldPredict a.packet p.sessionBuilder).1 then
          predictionRequests a.liveHost session a.livePrediction else []) p p' := by
  refine Effect.Ensures.bind ((onBuilder_requests Ω _ p).mono fun predict q hq => ?_)
  obtain ⟨hpredict, hq⟩ := hq
  rw [← hpredict]
  cases predict with
  | false => exact Effect.Ensures.pure hq
  | true =>
    refine (publish_respond_requests env.firewall a.liveHost _ session false _ _ q).mono
      fun _ p' hp' => ?_
    have hboth := hq.trans hp'
    rwa [hq.sessionBuilder] at hboth

theorem finishSession_requests (env : Platform Φ Ω) (a : Arrival Ω)
    (decision : HeuristicDecision) (p : PacketProcessor Φ repr) :
    Effect.Ensures (finishSession env a decision) p fun _ p' =>
      Requests (SessionBuilder.finalizeSessionIfNeeded a.packet p.sessionBuilder).2
        ((SessionBuilder.finalizeSessionIfNeeded a.packet p.sessionBuilder).1.toList.flatMap
          fun f => predictionRequests a.flowEndHost f.session a.flowEndPrediction) p p' := by
  refine Effect.Ensures.bind ((onBuilder_requests Ω _ p).mono fun finalized q hq => ?_)
  obtain ⟨hfinalized, hq⟩ := hq
  rw [← hfinalized]
  cases finalized with
  | none => exact Effect.Ensures.pure hq
  | some f =>
    refine (publish_respond_requests env.firewall a.flowEndHost f.sessionKey f.session true _
      a.flowEndPrediction q).mono fun _ p' hp' => ?_
    have hboth := hq.trans hp'
    rw [hq.sessionBuilder] at hboth
    simpa using hboth

/-- The second half of `process`. -/
theorem advanceSessions_requests (env : Platform Φ Ω) (a : Arrival Ω)
    (decision : HeuristicDecision) (p : PacketProcessor Φ repr) :
    Effect.Ensures (advanceSessions env a decision) p fun _ p' =>
      AllAnswered (sessionRequests a (SessionBuilder.perPacket a.packet p.sessionBuilder).1)
        p.blockBook p'.blockBook := by
  refine Effect.Ensures.bind ((onBuilder_requests Ω _ p).mono fun session p₁ h₁ => ?_)
  obtain ⟨rfl, h₁⟩ := h₁
  refine Effect.Ensures.bind ((onBuilder_requests Ω _ p₁).mono fun expired p₂ h₂ => ?_)
  obtain ⟨rfl, h₂⟩ := h₂
  refine Effect.Ensures.bind
    ((forM_processFinalizedSession_requests env a decision _ p₂).mono fun _ p₃ h₃ => ?_)
  refine Effect.Ensures.bind ((predictIfDue_requests env a _ decision p₃).mono fun _ p₄ h₄ => ?_)
  refine (finishSession_requests env a decision p₄).mono fun _ p' h₅ => ?_
  have hall := ((((h₁.trans h₂).trans h₃).trans h₄).trans h₅).answered
  rw [h₄.sessionBuilder, h₃.sessionBuilder, h₂.sessionBuilder, h₁.sessionBuilder] at hall
  simp only [List.nil_append] at hall
  rw [SessionBuilder.perPacket_calls]
  simp only [sessionRequests]
  exact hall

/-- What one call of `process` does to the book. -/
theorem process_book (env : Platform Φ Ω) (a : Arrival Ω) (p : PacketProcessor Φ repr) :
    AllAnswered (requestsOf env a p)
      (if env.firewall.isSome then p.blockBook.sweep a.expiryHost.clock.expireTime
      else p.blockBook) (process env a p).2.blockBook := by
  have hprocess : Effect.Ensures (process env a) p fun _ p' =>
      AllAnswered (requestsOf env a p)
        (if env.firewall.isSome then p.blockBook.sweep a.expiryHost.clock.expireTime
        else p.blockBook) p'.blockBook := by
    refine Effect.Ensures.bind
      (((assessed env a p).and (assessPacket_book env a p)).mono fun decision q hq => ?_)
    obtain ⟨⟨-, hleaves⟩, hfirst⟩ := hq
    refine (advanceSessions_requests env a _ q).mono fun _ p' hp' => ?_
    have hbuilder : q.sessionBuilder = p.sessionBuilder := hleaves.sessionBuilder
    rw [hbuilder] at hp'
    exact hfirst.append hp'
  obtain ⟨-, hbook⟩ := hprocess.snd
  exact hbook

/-! ## What a command does to the book -/

/-- The book after the blocker was called for a command. -/
theorem blockBook_afterCall (h : Host Ω) (id action ip : String) (ok : Bool) (b : AutoBlocker Φ)
    (p : PacketProcessor Φ repr) :
    (afterCall h id action ip ok b p).blockBook =
      ⟨b.blockedUntil,
        if ok then p.blockEvents ++ [commandBlockEvent h id action ip] else p.blockEvents⟩ := by
  unfold afterCall commit
  simp only
  split_ifs <;> rfl

theorem concerns_commandBlockEvent {h : Host Ω} {id action ip j : String}
    (hconcerns : (commandBlockEvent h id action ip).Concerns j) :
    action ≠ "watchlist" ∧ action ≠ "unwatchlist" := by
  constructor
  · rintro rfl
    revert hconcerns
    simp [BlockEvent.Concerns, commandBlockEvent, mappedAction]
  · rintro rfl
    revert hconcerns
    simp [BlockEvent.Concerns, commandBlockEvent, mappedAction]

/-- A block command finds no deadline that has passed, and leaves no block behind
when it raises: its own deadline is a date, or too large to be computed, or the
address is blocked already, or the firewall refuses it. -/
structure Announced (fw : Option (FirewallAdapter Φ Ω)) (h : Host Ω) (ip : String)
    (duration : ℤ) (p : PacketProcessor Φ repr) : Prop where
  standing : ∀ e ∈ p.autoBlocker.blockedUntil.entries, h.clock.expireTime < e.2
  written : AutoBlocker.Recordable h duration ∨ ¬ FitsDouble (max 1 duration) ∨
    ip ∈ p.autoBlocker.blockedUntil.keys ∨ ¬ AutoBlocker.Enforceable fw h ip p.autoBlocker

instance (fw : Option (FirewallAdapter Φ Ω)) (h : Host Ω) (ip : String) (duration : ℤ)
    (p : PacketProcessor Φ repr) : Decidable (Announced fw h ip duration p) :=
  decidable_of_iff (_ ∧ _) ⟨fun hall => ⟨hall.1, hall.2⟩, fun hall => ⟨hall.1, hall.2⟩⟩

/-- A block command that is announced keeps the book truthful. -/
theorem truthful_attempt_block (fw : Option (FirewallAdapter Φ Ω)) (h : Host Ω) (id ip : String)
    {duration : ℤ} {p : PacketProcessor Φ repr} (htrue : p.blockBook.Truthful)
    (hannounced : AutoBlocker.isValidRoutableIp ip = true →
      Announced fw h ip (max 1 duration) p) :
    (attempt fw h id "block" ip duration p).2.blockBook.Truthful := by
  have hcall : blockerCall fw h "block" ip duration =
      some (AutoBlocker.tempBlock fw h ip (max 1 duration)) := rfl
  rcases em (AutoBlocker.Enforceable fw h ip p.autoBlocker →
    AutoBlocker.Recordable h (max 1 duration)) with hrec | hrec
  · -- the call returns, and its answer decides whether there is an event
    obtain ⟨answer, b, hok, hledger⟩ := AutoBlocker.tempBlock_requested fw h ip hrec
    rw [attempt_of_ok fw h p id "block" ip duration hcall hok, blockBook_afterCall]
    obtain ⟨ok, status⟩ := answer
    simp only at hledger ⊢
    generalize b.blockedUntil = ledger at hledger
    cases hledger with
    | unasked hnone => exact htrue
    | refused hip hfw =>
      show (p.blockBook.sweep h.clock.expireTime).Truthful
      rw [BlockBook.sweep_eq (hannounced hip).standing]
      exact htrue
    | granted hip hfw =>
      show ((p.blockBook.sweep h.clock.expireTime).grant ip _ _).Truthful
      rw [BlockBook.sweep_eq (hannounced hip).standing]
      exact htrue.grant rfl rfl _
  · -- the call raises after the firewall has accepted the block
    obtain ⟨henforce, hdate⟩ := Classical.not_imp.mp hrec
    cases fw with
    | none => exact henforce.elim
    | some fw =>
      have hquiet := hannounced henforce.1
      have hledger := AutoBlocker.blockedUntil_tempBlock_of_enforceable henforce (max 1 duration)
      have hsweep : p.blockBook.sweep h.clock.expireTime = p.blockBook :=
        BlockBook.sweep_eq hquiet.standing
      have hfilter : (p.autoBlocker.blockedUntil.filter fun e => h.clock.expireTime < e.2) =
          p.autoBlocker.blockedUntil := congrArg BlockBook.ledger hsweep
      obtain ⟨e, b, hrun⟩ := AutoBlocker.tempBlock_raises henforce hdate
      rw [hfilter, hrun] at hledger
      rw [attempt_of_error (some fw) h p id "block" ip duration hcall hrun]
      show (⟨b.blockedUntil, p.blockEvents⟩ : BlockBook).Truthful
      rw [hledger]
      split_ifs with hfits
      · have hmem : ip ∈ p.blockBook.ledger.keys := by
          rcases hquiet.written with hdate' | hhuge | hkey | hrefused
          · exact absurd hdate' hdate
          · exact absurd hfits hhuge
          · exact hkey
          · exact absurd henforce hrefused
        exact htrue.renew hmem _
      · exact htrue

/-- The other actions announce what they do. -/
theorem truthful_attempt_of_ne_block (fw : Option (FirewallAdapter Φ Ω)) (h : Host Ω)
    (id ip : String) {action : String} (hblock : action ≠ "block") (duration : ℤ)
    {p : PacketProcessor Φ repr} (htrue : p.blockBook.Truthful) :
    (attempt fw h id action ip duration p).2.blockBook.Truthful := by
  rcases em (action = "unblock") with rfl | hunblock
  · have hledger := AutoBlocker.blockedUntil_manualUnblock fw h ip p.autoBlocker
    have hcall : blockerCall fw h "unblock" ip duration =
        some (Effect.state (AutoBlocker.manualUnblock fw h ip)) := rfl
    rw [attempt_of_ok fw h p id "unblock" ip duration hcall (Effect.state_apply _ _),
      blockBook_afterCall, hledger]
    split_ifs
    · exact htrue.lift rfl rfl
    · exact htrue
  · cases hcall : blockerCall fw h action ip duration with
    | none =>
      rw [attempt_of_unsupported fw h p id action ip duration hcall]
      exact htrue
    | some call =>
      have hwatch : ∃ answer b, call p.autoBlocker = (.ok answer, b) ∧
          b.blockedUntil = p.autoBlocker.blockedUntil ∧
          (action = "watchlist" ∨ action = "unwatchlist") := by
        rw [blockerCall, if_neg hblock, if_neg hunblock] at hcall
        split_ifs at hcall with hwatchlist hunwatchlist
        · rw [Option.some.injEq] at hcall
          rw [← hcall]
          refine ⟨_, _, Effect.state_apply _ _, ?_, Or.inl hwatchlist⟩
          unfold AutoBlocker.watchlistIp
          split_ifs <;> rfl
        · rw [Option.some.injEq] at hcall
          rw [← hcall]
          refine ⟨_, _, Effect.state_apply _ _, ?_, Or.inr hunwatchlist⟩
          unfold AutoBlocker.unwatchlistIp
          split_ifs <;> rfl
      obtain ⟨answer, b, hok, hledger, haction⟩ := hwatch
      rw [attempt_of_ok fw h p id action ip duration hcall hok, blockBook_afterCall, hledger]
      split_ifs
      · refine htrue.publish fun j hconcerns => ?_
        have hneither := concerns_commandBlockEvent hconcerns
        exact haction.elim hneither.1 hneither.2
      · exact htrue

end PacketProcessor

/-! ## Runs -/

/-- A call of one of the two methods that change blocks. -/
inductive ProcessorCall (Ω : Type) where
  | process (a : Arrival Ω)
  | applyBackendCommand (d : Delivery Ω)

/-- The processor under these calls; the output says whether the call raised. -/
def processorCalls (env : Platform Φ Ω) :
    Machine (PacketProcessor Φ repr) (ProcessorCall Ω) (Except PyError Unit) where
  step p call :=
    match call with
    | .process a => ((p.process env a).2, (p.process env a).1)
    | .applyBackendCommand d =>
      ((p.applyBackendCommand env.firewall d.host d.command).2,
        (p.applyBackendCommand env.firewall d.host d.command).1.map fun _ => ())

/-- The command, with this reading of its duration, is no block that reaches the
blocker, or it is announced. -/
def CommandAnnounced (fw : Option (FirewallAdapter Φ Ω)) (p : PacketProcessor Φ repr)
    (d : Delivery Ω) : Except PyError ℤ → Prop
  | .error _ => True
  | .ok duration =>
    action repr d.command = "block" → ¬ p.Duplicate d.command →
      AutoBlocker.isValidRoutableIp (ipAddress repr d.command) = true →
      p.Announced fw d.host (ipAddress repr d.command) (max 1 duration)

instance (fw : Option (FirewallAdapter Φ Ω)) (p : PacketProcessor Φ repr) (d : Delivery Ω) :
    ∀ duration, Decidable (CommandAnnounced fw p d duration)
  | .error _ => inferInstanceAs (Decidable True)
  | .ok _ => inferInstanceAs (Decidable (_ → _ → _ → _))

/-- No block runs out silently during the call, and none is left unannounced. -/
def EveryBlockAnnounced (env : Platform Φ Ω) (p : PacketProcessor Φ repr) :
    ProcessorCall Ω → Prop
  | .process a =>
    (∀ e ∈ p.autoBlocker.blockedUntil.entries, a.expiryHost.clock.expireTime < e.2) ∧
      Undisturbed (requestsOf env a p) p.autoBlocker.blockedUntil
  | .applyBackendCommand d => CommandAnnounced env.firewall p d (durationSeconds d.command)

instance (env : Platform Φ Ω) (p : PacketProcessor Φ repr) :
    ∀ call, Decidable (EveryBlockAnnounced env p call)
  | .process _ => inferInstanceAs (Decidable (_ ∧ _))
  | .applyBackendCommand _ => inferInstanceAs (Decidable (CommandAnnounced _ _ _ _))

theorem truthful_process (env : Platform Φ Ω) (a : Arrival Ω) {p : PacketProcessor Φ repr}
    (htrue : p.blockBook.Truthful) (hannounced : EveryBlockAnnounced env p (.process a)) :
    (p.process env a).2.blockBook.Truthful := by
  obtain ⟨hstanding, hquiet⟩ := hannounced
  have hsweep : p.blockBook.sweep a.expiryHost.clock.expireTime = p.blockBook :=
    BlockBook.sweep_eq hstanding
  have hanswered := p.process_book env a
  rw [hsweep, ite_self] at hanswered
  exact hanswered.truthful htrue hquiet

theorem truthful_applyBackendCommand (fw : Option (FirewallAdapter Φ Ω)) (d : Delivery Ω)
    {p : PacketProcessor Φ repr} (htrue : p.blockBook.Truthful)
    (hannounced : CommandAnnounced fw p d (durationSeconds d.command)) :
    (p.applyBackendCommand fw d.host d.command).2.blockBook.Truthful := by
  rcases em (p.Duplicate d.command) with hdup | hdup
  · rw [p.applyBackendCommand_snd_of_duplicate fw d.host hdup]
    exact htrue
  · cases hduration : durationSeconds d.command with
    | error e =>
      rw [p.applyBackendCommand_of_unreadable fw d.host hduration]
      exact htrue
    | ok duration =>
      rw [hduration] at hannounced
      rcases em (action repr d.command = "" ∨ ipAddress repr d.command = "") with hblank | hblank
      · rw [p.applyBackendCommand_of_blank fw d.host hduration hblank]
        exact htrue
      · obtain ⟨haction, hip⟩ := not_or.mp hblank
        rw [p.applyBackendCommand_of_fresh fw d.host hduration haction hip hdup]
        rcases eq_or_ne (action repr d.command) "block" with hblock | hblock
        · rw [hblock]
          exact p.truthful_attempt_block fw d.host _ _ htrue (hannounced hblock hdup)
        · exact p.truthful_attempt_of_ne_block fw d.host _ _ hblock duration htrue

/-- The published block events tell the truth about the blocks.  In every run in
which no block runs out during a call and none is left unannounced, the last event
about an address says `blocked` exactly when it has a deadline, after every call. -/
theorem block_events_truthful (env : Platform Φ Ω) (firewall : Φ) (policy : ResponsePolicy)
    (store : ProcessedCommandStore repr) (calls : List (ProcessorCall Ω))
    (hannounced : (processorCalls env).Guarded (EveryBlockAnnounced env)
      (PacketProcessor.init firewall policy store) calls) :
    (processorCalls env).Always (fun p => p.blockBook.Truthful)
      (PacketProcessor.init firewall policy store) calls := by
  apply Machine.always_of_guarded _ _ _ hannounced
  · intro p call htrue hcall
    cases call with
    | process a => exact truthful_process env a htrue hcall
    | applyBackendCommand d => exact truthful_applyBackendCommand env.firewall d htrue hcall
  · intro ip
    exact iff_of_false (by simp [lastAction, PacketProcessor.blockBook, PacketProcessor.init])
      List.not_mem_nil

/-- A packet of another source, on a host where every firewall command runs. -/
def laterPacket (seconds : ℕ) (hlt : seconds < 253402214400) : Arrival CommandOutcomes :=
  .plain (.frozen seconds .allRun hlt)
    { srcIp := "198.51.100.7", dstIp := "10.0.0.1", protocol := 17, packetSize := 60,
      timestamp := seconds }

/-- A block of 300 s, and a packet 299 s later. -/
theorem block_events_truthful_in_time :
    (processorCalls linuxPlatform).Always (fun p => p.blockBook.Truthful) startedProcessor
      [.applyBackendCommand (backendCommand "cmd-1" "block"),
        .process (laterPacket 1700000299 (by decide))] :=
  block_events_truthful linuxPlatform [] (.init 90 25) (.empty 2 (by decide)) _
    (by decide +kernel)

/-- A packet 300 s later sweeps the deadline away, and the last event still says
`blocked`. -/
theorem expiry_not_announced :
    ¬ ∀ calls : List (ProcessorCall CommandOutcomes),
      (processorCalls linuxPlatform).Always (fun p => p.blockBook.Truthful) startedProcessor
        calls := by
  intro hclaim
  have hrun := hclaim [.applyBackendCommand (backendCommand "cmd-1" "block"),
    .process (laterPacket 1700000300 (by decide))]
  rw [Machine.always_iff] at hrun
  have hfinal := hrun _ [] (List.append_nil _).symm "203.0.113.10"
  revert hfinal
  decide +kernel

end SmartIDS.PacketCapture
