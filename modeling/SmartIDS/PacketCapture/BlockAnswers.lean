import SmartIDS.PacketCapture.CommandSpec
import SmartIDS.ResponseEngine.EnforcementStatus
set_option autoImplicit false

/-!
# PacketCapture: what the engine says about a block

The flag `temp_block` answers goes into the alerts, decides the action of the activity
records, and is the answer to a command of the backend.  Each of its callers is true of
the source exactly when the answer is.  The record of a suspicious packet is made before
any block is asked for, and is true exactly when the source is not blocked by then.
-/

namespace SmartIDS.PacketCapture

open SmartIDS.Foundation SmartIDS.Python SmartIDS.ResponseEngine SmartIDS.ThreatDetection
  SmartIDS.TrafficEngine

namespace PacketProcessor

variable {Φ Ω : Type} {repr : Json → String}

/-! ## True of the source -/

/-- These alerts say whether their sources are blocked. -/
def AlertsTrue (fw : Option (FirewallAdapter Φ Ω)) (h : Host Ω) (b : AutoBlocker Φ)
    (alerts : List Alert) : Prop :=
  ∀ alert ∈ alerts, alert.blocked = true ↔ b.isCurrentlyBlocked fw h alert.srcIp = true

/-- These records say `allowed` of no address that is blocked. -/
def RecordsTrue (fw : Option (FirewallAdapter Φ Ω)) (h : Host Ω) (b : AutoBlocker Φ)
    (records : List Activity) : Prop :=
  ∀ r ∈ records, r.action = "allowed" → b.isCurrentlyBlocked fw h r.ipAddress = false

/-- The alerts an action publishes and the records it makes are true when it is over. -/
def SpeaksTruly (fw : Option (FirewallAdapter Φ Ω)) (h : Host Ω) (x : Action Φ repr Unit)
    (p : PacketProcessor Φ repr) : Prop :=
  ∃ p', x p = (.ok (), p') ∧
    AlertsTrue fw h p'.autoBlocker (p'.alerts.drop p.alerts.length) ∧
    RecordsTrue fw h p'.autoBlocker
      (p'.autoBlocker.activity.drop p.autoBlocker.activity.length)

/-- The record of a suspicious packet. -/
def heuristicRecord (packet : PacketData) (decision : HeuristicDecision) : Activity :=
  ⟨packet.srcIp, decision.reason, "allowed", packet.timestamp⟩

/-- The response to a suspicious packet: its record is true when it is made, and the alert and
the records behind it are true when it is over. -/
def HeuristicSpeaksTruly (fw : Option (FirewallAdapter Φ Ω)) (h : Host Ω) (packet : PacketData)
    (decision : HeuristicDecision) (p : PacketProcessor Φ repr) : Prop :=
  RecordsTrue fw h p.autoBlocker [heuristicRecord packet decision] ∧
    ∃ p' records, respondToHeuristic fw h packet decision p = (.ok (), p') ∧
      p'.autoBlocker.activity =
        p.autoBlocker.activity ++ heuristicRecord packet decision :: records ∧
      AlertsTrue fw h p'.autoBlocker (p'.alerts.drop p.alerts.length) ∧
      RecordsTrue fw h p'.autoBlocker records

/-- A command that is answered is answered whether the address is blocked. -/
def CommandAnswersTruly (fw : Option (FirewallAdapter Φ Ω)) (h : Host Ω) (command : JsonObject)
    (p : PacketProcessor Φ repr) : Prop :=
  ∀ answer p', applyBackendCommand fw h command p = (.ok answer, p') →
    (answer.1 = true ↔
      p'.autoBlocker.isCurrentlyBlocked fw h (BackendCommand.ipAddress repr command) = true)

theorem isCurrentlyBlocked_recordDetectionActivity (fw : Option (FirewallAdapter Φ Ω)) (h : Host Ω)
    (b : AutoBlocker Φ) (ip attackType action : String) (t : Time) (j : String) :
    (b.recordDetectionActivity ip attackType action t).isCurrentlyBlocked fw h j =
      b.isCurrentlyBlocked fw h j := rfl

/-! ## The callers -/

/-- What an action that asks for a block and then speaks of it leaves: alerts with the flag,
and one record with the action that goes with it. -/
structure Speaks (ip : String) (answer : Bool × String) (b : AutoBlocker Φ)
    (x : Action Φ repr Unit) (p p' : PacketProcessor Φ repr) : Prop where
  returns : x p = (.ok (), p')
  alerts : ∃ alerts, p'.alerts = p.alerts ++ alerts ∧
    ∀ alert ∈ alerts, alert.blocked = answer.1 ∧ alert.srcIp = ip
  activity : ∃ attackType timestamp, p'.autoBlocker = b.recordDetectionActivity ip attackType
    (if answer.1 then "blocked" else "allowed") timestamp

section callers

variable {fw : Option (FirewallAdapter Φ Ω)} {h : Host Ω} {answer : Bool × String}
  {b : AutoBlocker Φ} {p : PacketProcessor Φ repr}

theorem speaks_respondToBruteforce {packet : PacketData}
    (hcall : AutoBlocker.tempBlock fw h packet.srcIp ResponsePolicy.bruteforceBlockSeconds
      p.autoBlocker = (.ok answer, b)) :
    ∃ p', Speaks packet.srcIp answer b (respondToBruteforce fw h packet) p p' := by
  obtain ⟨flag, status⟩ := answer
  have hon : respondToBruteforce fw h packet p = _ := Effect.bind_of_ok
    (show onBlocker _ p = (.ok (flag, status), { p with autoBlocker := b }) by
      rw [onBlocker, Effect.zoom_apply, hcall])
  cases flag <;>
    exact ⟨_, hon, ⟨_, rfl, List.forall_mem_singleton.mpr ⟨rfl, rfl⟩⟩, _, _, rfl⟩

theorem alerts_emitSessionAlert (key : SessionKey) (alert : Alert) (isFinal : Bool)
    (p : PacketProcessor Φ repr) :
    ∃ alerts, (emitSessionAlert key alert isFinal p).alerts = p.alerts ++ alerts ∧
      ∀ a ∈ alerts, a.blocked = alert.blocked ∧ a.srcIp = alert.srcIp := by
  unfold emitSessionAlert
  dsimp only
  split
  · exact ⟨[], (List.append_nil _).symm, fun _ h => absurd h List.not_mem_nil⟩
  · exact ⟨_, rfl, List.forall_mem_singleton.mpr ⟨rfl, rfl⟩⟩

theorem autoBlocker_emitSessionAlert (key : SessionKey) (alert : Alert) (isFinal : Bool)
    (p : PacketProcessor Φ repr) :
    (emitSessionAlert key alert isFinal p).autoBlocker = p.autoBlocker := by
  unfold emitSessionAlert
  dsimp only
  split <;> rfl

theorem speaks_raiseSessionAlert {key : SessionKey} {session : TrafficSession}
    {prediction : Prediction} {isFinal : Bool}
    (hcall : AutoBlocker.tempBlock fw h session.srcIp ResponsePolicy.mlConfirmedBlockSeconds
      p.autoBlocker = (.ok answer, b)) :
    ∃ p', Speaks session.srcIp answer b (raiseSessionAlert fw h key session prediction isFinal)
      p p' := by
  have hon : raiseSessionAlert fw h key session prediction isFinal p = _ := Effect.bind_of_ok
    (show onBlocker _ p = (.ok answer, { p with autoBlocker := b }) by
      rw [onBlocker, Effect.zoom_apply, hcall])
  have halerts := alerts_emitSessionAlert key (sessionAlert session prediction answer isFinal)
    isFinal { p with autoBlocker := b }
  have hblocker := autoBlocker_emitSessionAlert key
    (sessionAlert session prediction answer isFinal) isFinal { p with autoBlocker := b }
  obtain ⟨flag, status⟩ := answer
  cases flag <;>
    exact ⟨_, hon, halerts, _, _, congrArg
      (fun b => AutoBlocker.recordDetectionActivity b session.srcIp prediction.label _
        session.lastSeen) hblocker⟩

end callers

section truth

variable {fw : FirewallAdapter Φ Ω} {succeeds : Ω → Prop} {ruled : Φ → String → Prop}
  (hfw : Reliable fw succeeds ruled) {h : Host Ω} (hh : succeeds h.outcomes)
  {p : PacketProcessor Φ repr} (hruled : AutoBlocker.AllRuled ruled p.autoBlocker)

include hfw hh hruled

/-- A caller that asks and then speaks is true of the source exactly if the request is not
refused for the cooldown. -/
theorem speaksTruly_iff {ip : String} (hip : AutoBlocker.isValidRoutableIp ip = true)
    {duration : ℤ} (hday : duration ≤ 86400) {x : Action Φ repr Unit}
    (hspeaks : ∀ answer b, AutoBlocker.tempBlock (some fw) h ip duration p.autoBlocker =
      (.ok answer, b) → ∃ p', Speaks ip answer b x p p') :
    SpeaksTruly (some fw) h x p ↔
      (p.autoBlocker.expireBlocks (some fw) h).coolingDown h.clock.now ip = false := by
  obtain ⟨answer, b, hcall, -⟩ :=
    AutoBlocker.tempBlock_ensures (some fw) h ip hday p.autoBlocker
  obtain ⟨p', hrun, ⟨alerts, halerts, hflags⟩, attackType, timestamp, hblocker⟩ :=
    hspeaks answer b hcall
  obtain ⟨hflag, hblocked⟩ := AutoBlocker.tempBlock_blocked hfw hh hruled hip hcall
  have hend : p'.autoBlocker.isCurrentlyBlocked (some fw) h ip = true := by
    rw [hblocker, isCurrentlyBlocked_recordDetectionActivity, hblocked]
  have hquiet := AutoBlocker.keeps_tempBlock p.autoBlocker.activity (some fw) h ip duration
    p.autoBlocker (.refl _)
  rw [hcall] at hquiet
  obtain ⟨since, hsince, hnone⟩ := hquiet
  have hactivity : p'.autoBlocker.activity.drop p.autoBlocker.activity.length =
      since ++ [⟨ip, attackType, if answer.1 then "blocked" else "allowed", timestamp⟩] := by
    have happended : p'.autoBlocker.activity = b.activity ++
        [⟨ip, attackType, if answer.1 then "blocked" else "allowed", timestamp⟩] := by
      rw [hblocker]
      rfl
    rw [happended, show b.activity = _ from hsince, List.append_assoc, List.drop_left]
  constructor
  · rintro ⟨q, hrun', -, hrecords⟩
    obtain rfl : p' = q := (Prod.mk.inj (hrun.symm.trans hrun')).2
    by_contra hcool
    rw [Bool.not_eq_false] at hcool
    rw [hcool] at hflag
    rw [hactivity, hflag] at hrecords
    have hallowed := hrecords _ (List.mem_append_right _ List.mem_cons_self) rfl
    rw [hend] at hallowed
    cases hallowed
  · intro hcool
    rw [hcool] at hflag
    refine ⟨p', hrun, ?_, ?_⟩
    · rw [halerts, List.drop_left]
      intro alert halert
      obtain ⟨hanswer, hsrc⟩ := hflags alert halert
      rw [hanswer, hsrc, hend, hflag]
      exact ⟨fun _ => rfl, fun _ => rfl⟩
    · rw [hactivity, hflag]
      intro r hr hallowed
      rcases List.mem_append.mp hr with hr | hr
      · exact absurd hallowed (hnone r hr)
      · rw [List.mem_singleton.mp hr] at hallowed
        exact absurd hallowed (show "blocked" ≠ "allowed" by decide)

/-- The response to a suspicious packet is true of the source exactly if the source is not
blocked when its record is made. -/
theorem heuristicSpeaksTruly_iff {packet : PacketData} (decision : HeuristicDecision)
    (hip : AutoBlocker.isValidRoutableIp packet.srcIp = true) :
    HeuristicSpeaksTruly (some fw) h packet decision p ↔
      p.autoBlocker.isCurrentlyBlocked (some fw) h packet.srcIp = false := by
  refine ⟨fun htruly => htruly.1 _ List.mem_cons_self rfl, fun hfree => ⟨?_, ?_⟩⟩
  · exact List.forall_mem_singleton.mpr fun _ => hfree
  have hday : ResponsePolicy.highHeuristicBlockSeconds ≤ 86400 := by decide
  unfold respondToHeuristic
  rw [Effect.bind_of_ok (Effect.modify_apply _ p)]
  split
  · set q := recordActivity packet.srcIp decision.reason "allowed" packet.timestamp p with hq
    have hruled' : AutoBlocker.AllRuled ruled q.autoBlocker := hruled
    have hcool := AutoBlocker.coolingDown_of_not_isCurrentlyBlocked hfw hh hruled' hfree
    obtain ⟨answer, b, hcall, -⟩ :=
      AutoBlocker.tempBlock_ensures (some fw) h packet.srcIp hday q.autoBlocker
    obtain ⟨hflag, hblocked⟩ := AutoBlocker.tempBlock_blocked hfw hh hruled' hip hcall
    rw [hcool] at hflag
    have hquiet := AutoBlocker.keeps_tempBlock q.autoBlocker.activity (some fw) h
      packet.srcIp ResponsePolicy.highHeuristicBlockSeconds q.autoBlocker (.refl _)
    rw [hcall] at hquiet
    obtain ⟨since, hsince, hnone⟩ := hquiet
    have hactivity : b.activity =
        p.autoBlocker.activity ++ heuristicRecord packet decision :: since := by
      rw [show b.activity = _ from hsince]
      exact List.append_assoc _ _ _
    have hon : onBlocker (AutoBlocker.tempBlock (some fw) h packet.srcIp
        ResponsePolicy.highHeuristicBlockSeconds) q = (.ok answer, { q with autoBlocker := b }) := by
      rw [onBlocker, Effect.zoom_apply, hcall]
    rw [Effect.bind_of_ok hon]
    obtain ⟨flag, status⟩ := answer
    obtain rfl : flag = true := hflag
    refine ⟨_, since, rfl, hactivity, ?_, fun r hr hallowed => absurd hallowed (hnone r hr)⟩
    change AlertsTrue (some fw) h b ((p.alerts ++ [_]).drop p.alerts.length)
    rw [List.drop_left]
    exact List.forall_mem_singleton.mpr (iff_of_true rfl hblocked)
  · refine ⟨_, [], rfl, rfl, ?_, fun _ hr => absurd hr List.not_mem_nil⟩
    change AlertsTrue (some fw) h _ (p.alerts.drop p.alerts.length)
    rw [List.drop_length]
    exact fun _ halert => absurd halert List.not_mem_nil

/-- A block command that is not a duplicate is answered truly exactly if it is not refused for
the cooldown. -/
theorem commandAnswersTruly_iff {command : JsonObject}
    (haction : BackendCommand.action repr command = "block")
    (hip : AutoBlocker.isValidRoutableIp (BackendCommand.ipAddress repr command) = true)
    (hread : ReadableDuration command) (hfresh : ¬ p.Duplicate command) :
    CommandAnswersTruly (some fw) h command p ↔
      (p.autoBlocker.expireBlocks (some fw) h).coolingDown h.clock.now
        (BackendCommand.ipAddress repr command) = false := by
  obtain ⟨duration, hduration⟩ := (durationSeconds_isOk_iff command).mpr hread
  have hne : BackendCommand.ipAddress repr command ≠ "" := by
    intro hblank
    rw [hblank] at hip
    exact absurd hip (by decide +kernel)
  rw [← AutoBlocker.answersTruly_iff hfw hh hruled hip (max 1 duration)]
  unfold CommandAnswersTruly AutoBlocker.AnswersTruly
  rw [applyBackendCommand_of_fresh (some fw) h p hduration (by rw [haction]; decide) hne hfresh]
  have hcall : blockerCall (some fw) h (BackendCommand.action repr command)
      (BackendCommand.ipAddress repr command) duration =
      some (AutoBlocker.manualBlock (some fw) h (BackendCommand.ipAddress repr command)
        (max 1 duration)) := if_pos haction
  rcases hrun : AutoBlocker.tempBlock (some fw) h (BackendCommand.ipAddress repr command)
    (max 1 duration) p.autoBlocker with ⟨result, b⟩
  cases result with
  | error e =>
    rw [attempt_of_error (some fw) h p _ _ _ _ hcall hrun]
    simp
  | ok answer =>
    have hblocker := autoBlocker_afterCall h (BackendCommand.commandId repr command)
      (BackendCommand.action repr command) (BackendCommand.ipAddress repr command) answer.1 b p
    rw [attempt_of_ok (some fw) h p _ _ _ _ hcall hrun]
    constructor
    · intro htruly answer' b' heq
      obtain ⟨hanswer, rfl⟩ := Prod.mk.inj heq
      obtain rfl := Except.ok.inj hanswer
      have h := htruly _ _ rfl
      rwa [hblocker] at h
    · intro htruly answer' p' heq
      obtain ⟨hanswer, rfl⟩ := Prod.mk.inj heq
      obtain rfl := Except.ok.inj hanswer
      rw [hblocker]
      exact htruly _ _ rfl

end truth

/-! ## The states of the blocker -/

/-- The firewall commands of every host a packet meets succeed. -/
structure Succeeds (succeeds : Ω → Prop) (a : Arrival Ω) : Prop where
  expiry : succeeds a.expiryHost.outcomes
  heuristic : succeeds a.heuristicHost.outcomes
  bruteforce : succeeds a.bruteforceHost.outcomes
  live : succeeds a.liveHost.outcomes
  expired : ∀ key, succeeds (a.expiredHost key).outcomes
  flowEnd : succeeds a.flowEndHost.outcomes

section reaches

variable (fw : FirewallAdapter Φ Ω) (succeeds : Ω → Prop) (firewall : Φ)

variable (repr) in
/-- The blocker of the processor is in a state it reaches. -/
def BlockerReaches (p : PacketProcessor Φ repr) : Prop :=
  AutoBlocker.Reaches fw succeeds firewall p.autoBlocker

variable {fw succeeds firewall}

theorem BlockerReaches.recordActivity {p : PacketProcessor Φ repr}
    (hp : BlockerReaches repr fw succeeds firewall p) (ip attackType action : String)
    (timestamp : Time) :
    BlockerReaches repr fw succeeds firewall
      (PacketProcessor.recordActivity ip attackType action timestamp p) :=
  hp.step (c := .recordDetectionActivity ip attackType action timestamp) trivial

theorem keeps_onBlocker_tempBlock {h : Host Ω} (hh : succeeds h.outcomes) (ip : String)
    (duration : ℤ) :
    Effect.Keeps (BlockerReaches repr fw succeeds firewall)
      (onBlocker (AutoBlocker.tempBlock (some fw) h ip duration)) :=
  fun _ hp => hp.step (c := .operation (.tempBlock h ip duration)) hh

theorem keeps_respondToHeuristic {h : Host Ω} (hh : succeeds h.outcomes) (packet : PacketData)
    (decision : HeuristicDecision) :
    Effect.Keeps (BlockerReaches repr fw succeeds firewall)
      (respondToHeuristic (some fw) h packet decision) := by
  refine .bind (.modify fun _ hp => hp.recordActivity _ _ _ _) fun _ => ?_
  split
  · refine .bind (keeps_onBlocker_tempBlock hh _ _) fun answer =>
      .bind (.modify fun _ hp => hp) fun _ => ?_
    split
    · exact .modify fun _ hp => hp
    · exact .pure _
  · exact .pure _

theorem keeps_respondToBruteforce {h : Host Ω} (hh : succeeds h.outcomes) (packet : PacketData) :
    Effect.Keeps (BlockerReaches repr fw succeeds firewall)
      (respondToBruteforce (some fw) h packet) := by
  refine .bind (keeps_onBlocker_tempBlock hh _ _) fun answer =>
    .bind (.modify fun _ hp => hp) fun _ => ?_
  dsimp only
  split
  · exact .bind (.modify fun _ hp => hp) fun _ => .modify fun _ hp => hp.recordActivity _ _ _ _
  · exact .modify fun _ hp => hp.recordActivity _ _ _ _

theorem keeps_raiseSessionAlert {h : Host Ω} (hh : succeeds h.outcomes) (key : SessionKey)
    (session : TrafficSession) (prediction : Prediction) (isFinal : Bool) :
    Effect.Keeps (BlockerReaches repr fw succeeds firewall)
      (raiseSessionAlert (some fw) h key session prediction isFinal) := by
  refine .bind (keeps_onBlocker_tempBlock hh _ _) fun answer => .bind (.modify fun p hp => ?_)
    fun _ => ?_
  · unfold BlockerReaches
    rw [autoBlocker_emitSessionAlert]
    exact hp
  · dsimp only
    split
    · exact .bind (.modify fun _ hp => hp) fun _ => .modify fun _ hp => hp.recordActivity _ _ _ _
    · exact .modify fun _ hp => hp.recordActivity _ _ _ _

theorem keeps_respondToPrediction {h : Host Ω} (hh : succeeds h.outcomes) (key : SessionKey)
    (session : TrafficSession) (isFinal : Bool) (prediction : Option Prediction) :
    Effect.Keeps (BlockerReaches repr fw succeeds firewall)
      (respondToPrediction (some fw) h key session isFinal prediction) := by
  unfold respondToPrediction
  cases prediction with
  | none => exact .pure _
  | some prediction =>
    dsimp only
    split
    · exact keeps_raiseSessionAlert hh key session prediction isFinal
    · exact .pure _

theorem keeps_processFinalizedSession {h : Host Ω} (hh : succeeds h.outcomes)
    (prediction : Option Prediction) (decision : HeuristicDecision) (finalized : Finalized) :
    Effect.Keeps (BlockerReaches repr fw succeeds firewall)
      (processFinalizedSession (some fw) h prediction decision finalized) :=
  .bind (.modify fun _ hp => hp) fun _ => keeps_respondToPrediction hh _ _ _ _

theorem keeps_noteSource {h : Host Ω} (hh : succeeds h.outcomes) (packet : PacketData)
    {p : PacketProcessor Φ repr} (hp : BlockerReaches repr fw succeeds firewall p) :
    BlockerReaches repr fw succeeds firewall (noteSource (some fw) h packet p) := by
  have hswept : BlockerReaches repr fw succeeds firewall
      { p with autoBlocker := p.autoBlocker.expireBlocks (some fw) h } :=
    hp.step (c := .operation (.expireBlocks h)) hh
  unfold noteSource
  dsimp only
  split <;> split
  · exact (hswept.recordActivity _ _ _ _).recordActivity _ _ _ _
  · exact hswept.recordActivity _ _ _ _
  · exact hswept.recordActivity _ _ _ _
  · exact hswept

theorem keeps_onBuilder {α : Type} (f : SessionBuilder → α × SessionBuilder) :
    Effect.Keeps (BlockerReaches repr fw succeeds firewall) (onBuilder f) :=
  fun _ hp => hp

theorem keeps_evaluatePacket (cfg : HeuristicConfig) (packet : PacketData) :
    Effect.Keeps (BlockerReaches repr fw succeeds firewall)
      (evaluatePacket cfg packet) :=
  fun _ hp => hp

theorem keeps_recordBruteforceAttempt (packet : PacketData) :
    Effect.Keeps (BlockerReaches repr fw succeeds firewall)
      (recordBruteforceAttempt packet) :=
  fun _ hp => hp

theorem keeps_respondToPacket {env : Platform Φ Ω} (henv : env.firewall = some fw)
    {a : Arrival Ω} (ha : Succeeds succeeds a) (decision : HeuristicDecision)
    (bruteForceSuspected : Bool) :
    Effect.Keeps (BlockerReaches repr fw succeeds firewall)
      (respondToPacket env a decision bruteForceSuspected) := by
  unfold respondToPacket
  rw [henv]
  have hbruteforce : Effect.Keeps (BlockerReaches repr fw succeeds firewall)
      (if bruteForceSuspected = true then
        respondToBruteforce (some fw) a.bruteforceHost a.packet else Pure.pure ()) := by
    split
    · exact keeps_respondToBruteforce ha.bruteforce a.packet
    · exact .pure _
  dsimp only
  split
  · exact .bind (keeps_respondToHeuristic ha.heuristic a.packet decision) fun _ => hbruteforce
  · exact hbruteforce

theorem keeps_assessPacket {env : Platform Φ Ω} (henv : env.firewall = some fw)
    {a : Arrival Ω} (ha : Succeeds succeeds a) :
    Effect.Keeps (BlockerReaches repr fw succeeds firewall) (assessPacket env a) := by
  refine .bind (.modify fun p hp => ?_) fun _ => .bind (keeps_evaluatePacket _ _) fun decision =>
    .bind (keeps_recordBruteforceAttempt _) fun suspected =>
      .bind (keeps_respondToPacket henv ha decision suspected) fun _ => .pure _
  rw [henv]
  exact keeps_noteSource ha.expiry a.packet hp

theorem keeps_predictIfDue {env : Platform Φ Ω} (henv : env.firewall = some fw)
    {a : Arrival Ω} (ha : Succeeds succeeds a) (session : TrafficSession)
    (decision : HeuristicDecision) :
    Effect.Keeps (BlockerReaches repr fw succeeds firewall)
      (predictIfDue env a session decision) := by
  unfold predictIfDue
  rw [henv]
  refine .bind (keeps_onBuilder _) fun due => ?_
  split
  · exact .bind (.modify fun _ hp => hp) fun _ => keeps_respondToPrediction ha.live _ _ _ _
  · exact .pure _

theorem keeps_finishSession {env : Platform Φ Ω} (henv : env.firewall = some fw)
    {a : Arrival Ω} (ha : Succeeds succeeds a) (decision : HeuristicDecision) :
    Effect.Keeps (BlockerReaches repr fw succeeds firewall)
      (finishSession env a decision) := by
  unfold finishSession
  rw [henv]
  refine .bind (keeps_onBuilder _) fun finalized => ?_
  cases finalized with
  | none => exact .pure _
  | some finalized => exact keeps_processFinalizedSession ha.flowEnd _ decision finalized

/-- Whatever packets are processed, the blocker is in a state it reaches. -/
theorem keeps_process {env : Platform Φ Ω} (henv : env.firewall = some fw) {a : Arrival Ω}
    (ha : Succeeds succeeds a) :
    Effect.Keeps (BlockerReaches repr fw succeeds firewall) (process env a) := by
  refine .bind (keeps_assessPacket henv ha) fun decision => .bind (keeps_onBuilder _)
    fun session => .bind (keeps_onBuilder _) fun expired =>
      .bind (.forM fun finalized _ => ?_) fun _ => .bind
        (keeps_predictIfDue henv ha session decision) fun _ => keeps_finishSession henv ha decision
  rw [henv]
  exact keeps_processFinalizedSession (ha.expired _) _ decision finalized

theorem keeps_blockerCall {h : Host Ω} (hh : succeeds h.outcomes) {action ip : String}
    {duration : ℤ} {call : Effect PyError (AutoBlocker Φ) (Bool × String)}
    (hcall : blockerCall (some fw) h action ip duration = some call) :
    Effect.Keeps (AutoBlocker.Reaches fw succeeds firewall) call := by
  unfold blockerCall at hcall
  split_ifs at hcall
  all_goals obtain rfl := Option.some.inj hcall
  · exact fun _ hb => hb.step (c := .operation (.manualBlock h ip (max 1 duration))) hh
  · exact fun _ hb => hb.step (c := .operation (.manualUnblock h ip)) hh
  · exact fun _ hb => hb.step (c := .watchlistIp h ip) trivial
  · exact fun _ hb => hb.step (c := .unwatchlistIp h ip) trivial

/-- Whatever commands are applied, the blocker is in a state it reaches. -/
theorem keeps_applyBackendCommand {h : Host Ω} (hh : succeeds h.outcomes) (command : JsonObject) :
    Effect.Keeps (BlockerReaches repr fw succeeds firewall)
      (applyBackendCommand (some fw) h command) := by
  refine .bind (.ofExcept _) fun duration => ?_
  split
  · exact .pure _
  refine .bind .get fun p => ?_
  split
  · exact .pure _
  unfold attempt
  cases hcall : blockerCall (some fw) h (BackendCommand.action repr command)
    (BackendCommand.ipAddress repr command) duration with
  | none => exact .pure _
  | some call =>
    have hkeeps : Effect.Keeps (BlockerReaches repr fw succeeds firewall)
        (onBlocker call) :=
      .zoom (keeps_blockerCall hh hcall) (fun _ hp => hp) fun _ _ _ hb => hb
    refine .bind hkeeps fun answer => ?_
    dsimp only
    split
    · refine .bind (.modify fun p hp => ?_) fun _ => .pure _
      unfold BlockerReaches
      rw [autoBlocker_commit]
      exact hp
    · exact .pure _

end reaches

/-! ## Over a firewall whose commands succeed -/

/-- In every state the blocker reaches: the answer to a block request tells whether the address
is blocked exactly when the request is not refused for the cooldown, and so do the alert and
the activity record of a brute force attack, those of a prediction, live or final, and the
answer to a block command; the response to a suspicious packet is true of the source exactly
when the source is not blocked yet. -/
theorem block_answer_truthful_iff {fw : FirewallAdapter Φ Ω} {succeeds : Ω → Prop}
    {ruled : Φ → String → Prop} (hfw : Reliable fw succeeds ruled) (firewall : Φ)
    (cs : List (AutoBlocker.Call Ω)) (hcs : ∀ c ∈ cs, c.Succeeds succeeds)
    (h : Host Ω) (hh : succeeds h.outcomes) (ip : String)
    (hip : AutoBlocker.isValidRoutableIp ip = true) (duration : ℤ) :
    let b := (AutoBlocker.calls (some fw)).exec (.init firewall) cs
    let refused := (b.expireBlocks (some fw) h).coolingDown h.clock.now ip
    (AutoBlocker.AnswersTruly (some fw) h ip duration b ↔ refused = false) ∧
      ∀ p : PacketProcessor Φ repr, p.autoBlocker = b →
        (∀ packet, packet.srcIp = ip →
          (SpeaksTruly (some fw) h (respondToBruteforce (some fw) h packet) p ↔
            refused = false)) ∧
        (∀ key session prediction isFinal, session.srcIp = ip →
          (SpeaksTruly (some fw) h
              (raiseSessionAlert (some fw) h key session prediction isFinal) p ↔
            refused = false)) ∧
        (∀ packet decision, packet.srcIp = ip →
          (HeuristicSpeaksTruly (some fw) h packet decision p ↔
            b.isCurrentlyBlocked (some fw) h ip = false)) ∧
        (∀ command, BackendCommand.action repr command = "block" →
          BackendCommand.ipAddress repr command = ip → ReadableDuration command →
          ¬ p.Duplicate command →
          (CommandAnswersTruly (some fw) h command p ↔ refused = false)) := by
  intro b refused
  have hruled : AutoBlocker.AllRuled ruled b := AutoBlocker.allRuled_exec hfw firewall cs hcs
  refine ⟨AutoBlocker.answersTruly_iff hfw hh hruled hip duration, fun p hp => ?_⟩
  rw [← hp] at hruled
  have hrefused : refused =
      (p.autoBlocker.expireBlocks (some fw) h).coolingDown h.clock.now ip := by rw [hp]
  rw [hrefused, ← hp]
  refine ⟨?_, ?_, ?_, ?_⟩
  · rintro packet rfl
    exact speaksTruly_iff hfw hh hruled hip (by decide) fun _ _ => speaks_respondToBruteforce
  · rintro key session prediction isFinal rfl
    exact speaksTruly_iff hfw hh hruled hip (by decide) fun _ _ => speaks_raiseSessionAlert
  · rintro packet decision rfl
    exact heuristicSpeaksTruly_iff hfw hh hruled decision hip
  · rintro command haction rfl hread hfresh
    exact commandAnswersTruly_iff hfw hh hruled haction hip hread hfresh

/-- An operator's host at this second, every command of which runs. -/
def hostAt (seconds : ℕ) (hlt : seconds < 253402214400) : Host CommandOutcomes :=
  Host.frozen seconds .allRun hlt

/-- A block of five minutes. -/
def blockedOnce : List (AutoBlocker.Call CommandOutcomes) :=
  [.operation (.tempBlock (hostAt 1000 lt_maxSeconds_1000) "198.51.100.7" 300)]

theorem allRun_blockedOnce : ∀ c ∈ blockedOnce, c.Succeeds CommandOutcomes.AllRun := by
  intro c hc
  rw [List.mem_singleton.mp hc]
  exact CommandOutcomes.allRun_allRun

/-- After the cooldown the next request is answered truly. -/
theorem block_answer_truthful_of_later :
    AutoBlocker.AnswersTruly (some linuxAdapter) (hostAt 1060 (by decide)) "198.51.100.7" 300
      ((AutoBlocker.calls (some linuxAdapter)).exec (.init []) blockedOnce) := by
  have hiff := @block_answer_truthful_iff _ _ (fun _ => "") _ _ _ reliable_linuxAdapter []
    blockedOnce allRun_blockedOnce (hostAt 1060 (by decide)) CommandOutcomes.allRun_allRun
    "198.51.100.7" (by decide +kernel) 300
  exact hiff.1.mpr (by decide +kernel)

/-- Half a minute after the block the source is blocked, the next request is answered with
false, and a brute force alert or one of a model says that it is not blocked; and a
suspicious packet is recorded as allowed, then and after the cooldown. -/
theorem cooldown_answer_untrue :
    let b := (AutoBlocker.calls (some linuxAdapter)).exec (.init []) blockedOnce
    let host := hostAt 1030 (by decide)
    let later := hostAt 1070 (by decide)
    (AutoBlocker.tempBlock (some linuxAdapter) host "198.51.100.7" 300 b).1 =
        .ok (false, "cooldown_active") ∧
      (AutoBlocker.tempBlock (some linuxAdapter) host "198.51.100.7" 300 b).2.isCurrentlyBlocked
        (some linuxAdapter) host "198.51.100.7" = true ∧
      ∀ (text : Json → String) (p : PacketProcessor Chain text) (packet : PacketData),
        p.autoBlocker = b → packet.srcIp = "198.51.100.7" →
          ¬ SpeaksTruly (some linuxAdapter) host
              (respondToBruteforce (some linuxAdapter) host packet) p ∧
            ∀ decision, ¬ HeuristicSpeaksTruly (some linuxAdapter) later packet decision p := by
  intro b host later
  refine ⟨by decide +kernel, by decide +kernel, ?_⟩
  intro text p packet hp hsrc
  have hruled : AutoBlocker.AllRuled (fun c ip => Chain.hasRule c ip = true) p.autoBlocker :=
    hp ▸ AutoBlocker.allRuled_exec reliable_linuxAdapter [] blockedOnce allRun_blockedOnce
  have hip : AutoBlocker.isValidRoutableIp packet.srcIp = true := hsrc ▸ by decide +kernel
  constructor
  · intro htruly
    have hfree := (speaksTruly_iff reliable_linuxAdapter CommandOutcomes.allRun_allRun hruled hip
      (by decide) fun _ _ => speaks_respondToBruteforce).mp htruly
    have hcool : (b.expireBlocks (some linuxAdapter) host).coolingDown host.clock.now
        "198.51.100.7" = true := by decide +kernel
    rw [hp, hsrc, hcool] at hfree
    cases hfree
  · intro decision htruly
    have hfree := (heuristicSpeaksTruly_iff reliable_linuxAdapter CommandOutcomes.allRun_allRun
      hruled decision hip).mp htruly
    have hblocked : b.isCurrentlyBlocked (some linuxAdapter) later "198.51.100.7" = true := by
      decide +kernel
    rw [hp, hsrc, hblocked] at hfree
    cases hfree

end PacketProcessor

end SmartIDS.PacketCapture
