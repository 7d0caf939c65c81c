import Mathlib.Data.Finset.Insert
import SmartIDS.PacketCapture.ProcessSpec
import SmartIDS.TrafficEngine.WellFiled
set_option autoImplicit false

/-!
# PacketCapture: the alert state over the life of a session

`_session_alert_state` is keyed by the text of a 5-tuple, which successive
sessions share.  The processor is watched by a set that its code does not keep:
the 5-tuples of the active sessions that have alerted.  While every session of
that set ends with an alerting final prediction, the alert state speaks of that
set only, and the first alert of a session is reported as one.
-/

namespace SmartIDS.PacketCapture

open SmartIDS.Foundation SmartIDS.Python SmartIDS.ResponseEngine SmartIDS.ThreatDetection
  SmartIDS.TrafficEngine

/-! ## The consultations of one packet -/

/-- The answer of a model calls for an alert. -/
def alerting (prediction : Option Prediction) : Bool :=
  prediction.any PacketProcessor.shouldAlert

/-- A session a model was asked about; the last time when the session ended. -/
structure Consultation where
  key : SessionKey
  session : TrafficSession
  prediction : Option Prediction
  isFinal : Bool

namespace Consultation

/-- The alert it leads to. -/
def calls (c : Consultation) : List PacketProcessor.AlertCall :=
  PacketProcessor.alertCall c.key c.session c.isFinal c.prediction

theorem calls_cases (c : Consultation) :
    (alerting c.prediction = false ∧ c.calls = []) ∨
      (alerting c.prediction = true ∧
        ∃ prediction, c.calls = [⟨c.key, c.session, prediction, c.isFinal⟩]) := by
  obtain ⟨key, session, prediction, isFinal⟩ := c
  cases prediction with
  | none => exact Or.inl ⟨rfl, rfl⟩
  | some prediction =>
    cases halert : PacketProcessor.shouldAlert prediction with
    | false => exact Or.inl ⟨halert, by simp [calls, PacketProcessor.alertCall, halert]⟩
    | true =>
      exact Or.inr ⟨halert, prediction, by simp [calls, PacketProcessor.alertCall, halert]⟩

end Consultation

/-- The active sessions that have alerted, moved on by one consultation, and the
alert if it is the first of its session. -/
def lives : Machine (Finset SessionKey) Consultation (List PacketProcessor.AlertCall) where
  step alerted c :=
    (if c.isFinal then alerted.erase c.key
      else if alerting c.prediction then insert c.key alerted
      else alerted,
    if c.key ∈ alerted then [] else c.calls)

section

variable {Ω : Type} (a : Arrival Ω) (report : SessionBuilder.PacketReport)

/-- The sessions that expire. -/
def expiredConsultations : List Consultation :=
  report.expired.map fun f => ⟨f.sessionKey, f.session, a.expiredPrediction f.sessionKey, true⟩

/-- The session of the packet, when its prediction is due. -/
def liveConsultations : List Consultation :=
  if report.predict then [⟨.fromPacket a.packet, report.session, a.livePrediction, false⟩] else []

/-- The session the packet ends. -/
def flowEndConsultations : List Consultation :=
  report.flowEnd.toList.map fun f => ⟨f.sessionKey, f.session, a.flowEndPrediction, true⟩

/-- The consultations `process` makes for a packet, in their order. -/
-- irreducible: unfolding it on a concrete report would run the session builder
@[irreducible] def consultations : List Consultation :=
  expiredConsultations a report ++ liveConsultations a report ++ flowEndConsultations a report

theorem callsOf_eq :
    PacketProcessor.callsOf a report = (consultations a report).flatMap Consultation.calls := by
  unfold PacketProcessor.callsOf consultations
  rw [List.flatMap_append, List.flatMap_append, expiredConsultations, flowEndConsultations,
    List.flatMap_map, List.flatMap_map, liveConsultations]
  cases report.predict <;> simp [Consultation.calls]

end

/-! ## The processor under watch -/

variable {Φ Ω : Type} {repr : Json → String}

structure Watched (Φ : Type) (repr : Json → String) where
  processor : PacketProcessor Φ repr
  /-- the 5-tuples of the active sessions that have alerted -/
  alerted : Finset SessionKey

namespace Watched

def init (firewall : Φ) (policy : ResponsePolicy) (store : ProcessedCommandStore repr) :
    Watched Φ repr :=
  ⟨.init firewall policy store, ∅⟩

/-- What the session builder reports about a packet. -/
def report (w : Watched Φ repr) (a : Arrival Ω) : SessionBuilder.PacketReport :=
  (SessionBuilder.perPacket a.packet w.processor.sessionBuilder).1

end Watched

/-- `process` along a run; the output are the alerts published in the call. -/
def watch (env : Platform Φ Ω) : Machine (Watched Φ repr) (Arrival Ω) (List Alert) where
  step w a :=
    (⟨(w.processor.process env a).2, lives.exec w.alerted (consultations a (w.report a))⟩,
      (w.processor.process env a).2.alerts.drop w.processor.alerts.length)

theorem watch_step (env : Platform Φ Ω) (w : Watched Φ repr) (a : Arrival Ω) :
    (watch env).step w a =
      (⟨(w.processor.process env a).2, lives.exec w.alerted (consultations a (w.report a))⟩,
        (w.processor.process env a).2.alerts.drop w.processor.alerts.length) := rfl

/-- The alert published for a call that is the first of its session. -/
def Alert.Reports (alert : Alert) (call : PacketProcessor.AlertCall) : Prop :=
  alert = { PacketProcessor.sessionAlert call.session call.prediction
      (alert.blocked, alert.blockStatus) call.isFinal with
    sessionId := some (sessionKeyStr call.key)
    updateType := some (if call.isFinal then .final else .new) }

/-- Every alert of the call that is the first of its session is published, as
`new` unless the session ends with it. -/
def FirstAlertsReported (env : Platform Φ Ω) (w : Watched Φ repr) (a : Arrival Ω) : Prop :=
  ∀ call ∈ (lives.trace w.alerted (consultations a (w.report a))).flatten,
    ∃ alert ∈ ((watch env).step w a).2, alert.Reports call

/-- Every key of the alert state is that of an active session that has alerted. -/
def AlertStateAccounted (w : Watched Φ repr) : Prop :=
  ∀ id ∈ w.processor.sessionAlertState.keys,
    ∃ k ∈ w.processor.sessionBuilder.sessions.keys, sessionKeyStr k = id ∧ k ∈ w.alerted

/-- A session that has alerted and ends with this packet ends with an alerting
final prediction. -/
def EndsAlerting (w : Watched Φ repr) (a : Arrival Ω) : Prop :=
  (∀ k ∈ SessionBuilder.staleKeys a.packet.timestamp w.processor.sessionBuilder,
    k ∈ w.alerted → alerting (a.expiredPrediction k)) ∧
  (a.packet.endsFlow →
    (SessionKey.fromPacket a.packet ∈ w.alerted ∧ SessionKey.fromPacket a.packet ∉
      SessionBuilder.staleKeys a.packet.timestamp w.processor.sessionBuilder) ∨
      alerting a.livePrediction →
    alerting a.flowEndPrediction)

/-- No other active session has the key text of the packet. -/
def DistinctText (w : Watched Φ repr) (a : Arrival Ω) : Prop :=
  ∀ k ∈ w.processor.sessionBuilder.sessions.keys,
    sessionKeyStr k = sessionKeyStr (.fromPacket a.packet) → k = .fromPacket a.packet

/-- The condition under which the alert state follows the sessions. -/
def SettlesAlerts (w : Watched Φ repr) (a : Arrival Ω) : Prop :=
  EndsAlerting w a ∧ DistinctText w a

instance (alert : Alert) (call : PacketProcessor.AlertCall) : Decidable (alert.Reports call) :=
  inferInstanceAs (Decidable (alert = _))

instance (env : Platform Φ Ω) (w : Watched Φ repr) (a : Arrival Ω) :
    Decidable (FirstAlertsReported env w a) :=
  inferInstanceAs (Decidable (∀ call ∈ _, ∃ alert ∈ _, Alert.Reports alert call))

instance (w : Watched Φ repr) : Decidable (AlertStateAccounted w) :=
  inferInstanceAs (Decidable (∀ id ∈ _, ∃ k ∈ _, _))

instance (w : Watched Φ repr) (a : Arrival Ω) : Decidable (EndsAlerting w a) :=
  inferInstanceAs (Decidable (_ ∧ _))

instance (w : Watched Φ repr) (a : Arrival Ω) : Decidable (DistinctText w a) :=
  inferInstanceAs (Decidable (∀ k ∈ _, _))

instance (w : Watched Φ repr) (a : Arrival Ω) : Decidable (SettlesAlerts w a) :=
  inferInstanceAs (Decidable (_ ∧ _))

/-! ## One call of `_emit_session_alert` -/

namespace PacketProcessor

/-- Alerts are only ever added, and a call of a session whose text is not in the
alert state, or that ends with it, adds its report. -/
theorem AlertBook.alerts_emit (call : AlertCall) (answer : Bool × String) (book : AlertBook) :
    ∃ new, (book.emit call answer).alerts = book.alerts ++ new ∧
      (call.isFinal = true ∨ sessionKeyStr call.key ∉ book.state.keys →
        ∃ alert ∈ new, alert.Reports call) := by
  unfold AlertBook.emit
  simp only
  split
  · rename_i hrepeat
    refine ⟨[], (List.append_nil _).symm, fun hfirst => ?_⟩
    obtain ⟨hprevious, hlive⟩ := hrepeat
    obtain hfinal | hnew := hfirst
    · exact absurd hfinal hlive
    · exact absurd (Dict.mem_keys_of_get? hprevious) hnew
  · refine ⟨_, rfl, fun hfirst => ⟨_, List.mem_singleton_self _, ?_⟩⟩
    have hupdate : (if call.isFinal = true then UpdateType.final
        else if (book.state.get? (sessionKeyStr call.key)).isSome = true then UpdateType.updated
        else UpdateType.new) = if call.isFinal = true then .final else .new := by
      obtain hfinal | hnew := hfirst
      · rw [if_pos hfinal, if_pos hfinal]
      · rw [(Dict.get?_eq_none_iff _ _).mpr hnew]
        rfl
    rw [hupdate]
    rfl

/-- The keys after a call: a live one may add its own, a final one removes it. -/
theorem AlertBook.mem_keys_emit {call : AlertCall} {answer : Bool × String} {book : AlertBook}
    {id : String} (h : id ∈ (book.emit call answer).state.keys) :
    (call.isFinal = false ∧ id = sessionKeyStr call.key) ∨
      (id ∈ book.state.keys ∧ (call.isFinal = true → id ≠ sessionKeyStr call.key)) := by
  cases hfinal : call.isFinal with
  | true =>
    have hstate : (book.emit call answer).state = book.state.erase (sessionKeyStr call.key) := by
      simp [AlertBook.emit, hfinal, Dict.erase_set]
    rw [hstate, Dict.mem_keys_erase] at h
    exact Or.inr ⟨h.1, fun _ => h.2⟩
  | false =>
    have hstate : (book.emit call answer).state = book.state ∨
        ∃ signature, (book.emit call answer).state =
          book.state.set (sessionKeyStr call.key) signature := by
      simp only [AlertBook.emit, hfinal, Bool.false_eq_true, if_false]
      split
      · exact Or.inl rfl
      · exact Or.inr ⟨_, rfl⟩
    have hkeep : id ∈ book.state.keys → id ∈ book.state.keys ∧
        (false = true → id ≠ sessionKeyStr call.key) := fun hold =>
      ⟨hold, fun htrue => absurd htrue Bool.false_ne_true⟩
    obtain hstate | ⟨signature, hstate⟩ := hstate
    · rw [hstate] at h
      exact Or.inr (hkeep h)
    · rw [hstate, Dict.mem_keys_set] at h
      exact h.imp (fun heq => ⟨rfl, heq⟩) hkeep

theorem EmitsAll.of_append {calls calls' : List AlertCall} {book book'' : AlertBook}
    (h : EmitsAll (calls ++ calls') book book'') :
    ∃ book', EmitsAll calls book book' ∧ EmitsAll calls' book' book'' := by
  induction calls generalizing book with
  | nil => exact ⟨book, .nil book, h⟩
  | cons call calls ih =>
    cases h with
    | cons _ answer hrest =>
      obtain ⟨book', hcalls, hrest⟩ := ih hrest
      exact ⟨book', .cons call answer hcalls, hrest⟩

end PacketProcessor

/-! ## One consultation -/

/-- The alert state speaks of sessions that have alerted. -/
def Tracks (alerted : Finset SessionKey) (book : PacketProcessor.AlertBook) : Prop :=
  ∀ id ∈ book.state.keys, ∃ k ∈ alerted, sessionKeyStr k = id

/-- The condition on one consultation: a final one of a session that has alerted
alerts, a live one shares its key text with no other such session. -/
def Consultation.Settled (alerted : Finset SessionKey) (c : Consultation) : Prop :=
  (c.isFinal = true → c.key ∈ alerted → alerting c.prediction = true) ∧
  (c.isFinal = false → ∀ k ∈ alerted, sessionKeyStr k = sessionKeyStr c.key → k = c.key)

/-- What consultations do to the alert book and to the set of sessions that have
alerted. -/
structure Moves (alerted : Finset SessionKey) (cs : List Consultation)
    (book book' : PacketProcessor.AlertBook) : Prop where
  tracks : Tracks (lives.exec alerted cs) book'
  alerts : ∃ new, book'.alerts = book.alerts ++ new ∧
    ∀ call ∈ (lives.trace alerted cs).flatten, ∃ alert ∈ new, alert.Reports call

theorem moves_consultation {alerted : Finset SessionKey} {c : Consultation}
    {book book' : PacketProcessor.AlertBook} (hsettled : c.Settled alerted)
    (htracks : Tracks alerted book) (hemits : PacketProcessor.EmitsAll c.calls book book') :
    Moves alerted [c] book book' := by
  obtain ⟨hfinal, hlive⟩ := hsettled
  obtain ⟨hquiet, hcalls⟩ | ⟨halert, prediction, hcalls⟩ := c.calls_cases
  · -- no alert: a session that leaves had not alerted
    rw [hcalls] at hemits
    cases hemits
    refine ⟨?_, [], (List.append_nil _).symm, by simp [lives, hcalls]⟩
    have hsame : lives.exec alerted [c] = alerted := by
      cases hend : c.isFinal with
      | true =>
        have hnotMem : c.key ∉ alerted := fun hmem => by
          rw [hfinal hend hmem] at hquiet
          exact absurd hquiet (by decide)
        simp [lives, hend, Finset.erase_eq_of_notMem hnotMem]
      | false => simp [lives, hend, hquiet]
    rw [hsame]
    exact htracks
  · rw [hcalls] at hemits
    cases hemits with
    | cons _ answer hnil =>
    cases hnil
    constructor
    · intro id hid
      obtain ⟨hend, rfl⟩ | ⟨hold, hne⟩ := PacketProcessor.AlertBook.mem_keys_emit hid
      · exact ⟨c.key, by simp [lives, show c.isFinal = false from hend, halert], rfl⟩
      · obtain ⟨k, hk, rfl⟩ := htracks id hold
        refine ⟨k, ?_, rfl⟩
        cases hend : c.isFinal with
        | true =>
          have hother : k ≠ c.key := fun heq => hne hend (by rw [heq])
          simp [lives, hend, hother, hk]
        | false => simp [lives, hend, halert, hk]
    · obtain ⟨new, hnew, hreport⟩ := PacketProcessor.AlertBook.alerts_emit
        ⟨c.key, c.session, prediction, c.isFinal⟩ answer book
      refine ⟨new, hnew, fun call hcall => ?_⟩
      have hfirst : c.key ∉ alerted ∧ call = ⟨c.key, c.session, prediction, c.isFinal⟩ := by
        simp only [lives, Machine.trace_cons, Machine.trace_nil, hcalls] at hcall
        split_ifs at hcall with hmem
        · simp at hcall
        · exact ⟨hmem, by simpa using hcall⟩
      obtain ⟨hnotMem, rfl⟩ := hfirst
      apply hreport
      cases hend : c.isFinal with
      | true => exact Or.inl rfl
      | false =>
        -- the key text in the alert state would be that of another session
        refine Or.inr fun hmem => hnotMem ?_
        obtain ⟨k, hk, htext⟩ := htracks _ hmem
        rw [← hlive hend k hk htext]
        exact hk

/-- The run lemma over the consultations of a call. -/
theorem moves_consultations {alerted : Finset SessionKey} {cs : List Consultation}
    {book book' : PacketProcessor.AlertBook}
    (hsettled : lives.Guarded (fun alerted c => c.Settled alerted) alerted cs)
    (htracks : Tracks alerted book)
    (hemits : PacketProcessor.EmitsAll (cs.flatMap Consultation.calls) book book') :
    Moves alerted cs book book' := by
  induction cs generalizing alerted book with
  | nil =>
    cases hemits
    exact ⟨htracks, [], (List.append_nil _).symm, by simp⟩
  | cons c cs ih =>
    rw [List.flatMap_cons] at hemits
    obtain ⟨between, hfirst, hrest⟩ := hemits.of_append
    obtain ⟨htracks', new, hnew, hreports⟩ := moves_consultation hsettled.1 htracks hfirst
    obtain ⟨htracks'', new', hnew', hreports'⟩ := ih hsettled.2 htracks' hrest
    refine ⟨htracks'', new ++ new', ?_, fun call hcall => ?_⟩
    · rw [hnew', hnew, List.append_assoc]
    · rw [Machine.trace_cons, List.flatten_cons, List.mem_append] at hcall
      obtain hcall | hcall := hcall
      · obtain ⟨alert, hmem, hreport⟩ := hreports call (by simpa using hcall)
        exact ⟨alert, List.mem_append_left _ hmem, hreport⟩
      · obtain ⟨alert, hmem, hreport⟩ := hreports' call hcall
        exact ⟨alert, List.mem_append_right _ hmem, hreport⟩

/-! ## One packet -/

/-- The sessions that have alerted, after final consultations: those that did not
end. -/
theorem mem_exec_final {alerted : Finset SessionKey} {cs : List Consultation}
    (hfinal : ∀ c ∈ cs, c.isFinal = true) (k : SessionKey) :
    k ∈ lives.exec alerted cs ↔ k ∈ alerted ∧ ∀ c ∈ cs, c.key ≠ k := by
  induction cs generalizing alerted with
  | nil => simp
  | cons c cs ih =>
    obtain ⟨hc, hcs⟩ := List.forall_mem_cons.mp hfinal
    have hstep : (lives.step alerted c).1 = alerted.erase c.key := by simp [lives, hc]
    rw [Machine.exec_cons, hstep, ih hcs, Finset.mem_erase, List.forall_mem_cons, ne_comm]
    exact ⟨fun ⟨⟨hne, hk⟩, hrest⟩ => ⟨hk, hne, hrest⟩, fun ⟨hk, hne, hrest⟩ => ⟨⟨hne, hk⟩, hrest⟩⟩

/-- A live consultation adds the session of the packet, if it alerts. -/
theorem mem_exec_live {a : Arrival Ω} {report : SessionBuilder.PacketReport}
    {alerted : Finset SessionKey} {k : SessionKey}
    (hk : k ∈ lives.exec alerted (liveConsultations a report)) :
    k ∈ alerted ∨ (k = .fromPacket a.packet ∧ alerting a.livePrediction = true) := by
  unfold liveConsultations at hk
  cases hpredict : report.predict with
  | false =>
    rw [hpredict] at hk
    exact Or.inl hk
  | true =>
    rw [hpredict] at hk
    cases halert : alerting a.livePrediction with
    | false =>
      refine Or.inl ?_
      simpa [lives, halert] using hk
    | true =>
      obtain rfl | hold : k = SessionKey.fromPacket a.packet ∨ k ∈ alerted := by
        simpa [lives, halert] using hk
      · exact Or.inr ⟨rfl, rfl⟩
      · exact Or.inl hold

theorem isFinal_of_expired {a : Arrival Ω} {report : SessionBuilder.PacketReport}
    {c : Consultation} (hc : c ∈ expiredConsultations a report) : c.isFinal = true := by
  obtain ⟨f, -, rfl⟩ := List.mem_map.mp hc
  rfl

section

variable {w : Watched Φ repr} {a : Arrival Ω} {report : SessionBuilder.PacketReport}
  {b' : SessionBuilder}
  (hreported : SessionBuilder.Reported a.packet w.processor.sessionBuilder report b')
include hreported

/-- The sessions that have alerted, once the stale ones have left. -/
theorem mem_exec_expired (k : SessionKey) :
    k ∈ lives.exec w.alerted (expiredConsultations a report) ↔ k ∈ w.alerted ∧
      k ∉ SessionBuilder.staleKeys a.packet.timestamp w.processor.sessionBuilder := by
  rw [mem_exec_final fun c hc => isFinal_of_expired hc]
  refine and_congr_right fun _ => ⟨fun hne hstale => ?_, fun hfresh c hc heq => ?_⟩
  · obtain ⟨f, hf, hkey⟩ := hreported.stale k hstale
    exact hne _ (List.mem_map_of_mem hf) hkey
  · obtain ⟨f, hf, rfl⟩ := List.mem_map.mp hc
    rw [← heq] at hfresh
    exact hfresh (hreported.expired f hf).1

/-- The session the packet ends is its own. -/
theorem flowEndConsultations_eq :
    flowEndConsultations a report =
      if a.packet.endsFlow then [⟨.fromPacket a.packet, report.session, a.flowEndPrediction, true⟩]
      else [] := by
  unfold flowEndConsultations
  rw [hreported.flowEnd]
  cases a.packet.endsFlow <;> rfl

/-- The condition on a packet is the condition on its consultations. -/
theorem settled_consultations
    (hactive : ∀ k ∈ w.alerted, k ∈ w.processor.sessionBuilder.sessions.keys)
    (hsettles : SettlesAlerts w a) :
    lives.Guarded (fun alerted c => c.Settled alerted) w.alerted (consultations a report) := by
  obtain ⟨⟨hexpired, hended⟩, htexts⟩ := hsettles
  unfold consultations
  rw [Machine.guarded_append, Machine.guarded_append, Machine.exec_append]
  refine ⟨⟨?_, ?_⟩, ?_⟩
  · rw [Machine.guarded_iff]
    intro pre c suf hsplit
    have hmem : ∀ c' ∈ pre ++ c :: suf, c' ∈ expiredConsultations a report := fun c' hc' =>
      hsplit ▸ hc'
    have hc := hmem c (List.mem_append_right _ List.mem_cons_self)
    refine ⟨fun _ hkey => ?_, fun hlive => ?_⟩
    · have hpre := (mem_exec_final (fun c' hc' =>
        isFinal_of_expired (hmem c' (List.mem_append_left _ hc'))) c.key).mp hkey
      obtain ⟨f, hf, rfl⟩ := List.mem_map.mp hc
      exact hexpired _ (hreported.expired f hf).1 hpre.1
    · rw [isFinal_of_expired hc] at hlive
      exact absurd hlive (by decide)
  · unfold liveConsultations
    cases report.predict with
    | false => trivial
    | true =>
      refine ⟨⟨fun hfinal => absurd hfinal Bool.false_ne_true, fun _ k hk htext => ?_⟩, trivial⟩
      exact htexts k (hactive k ((mem_exec_expired hreported k).mp hk).1) htext
  · rw [flowEndConsultations_eq hreported]
    cases hends : a.packet.endsFlow with
    | false => trivial
    | true =>
      refine ⟨⟨fun _ hkey => ?_, fun hlive => absurd hlive.symm Bool.false_ne_true⟩, trivial⟩
      exact hended hends ((mem_exec_live hkey).imp (mem_exec_expired hreported _).mp And.right)

/-- After the packet, the sessions that have alerted are active. -/
theorem active_of_mem_exec
    (hactive : ∀ k ∈ w.alerted, k ∈ w.processor.sessionBuilder.sessions.keys) {k : SessionKey}
    (hk : k ∈ lives.exec w.alerted (consultations a report)) : k ∈ b'.sessions.keys := by
  rw [hreported.mem_sessions]
  unfold consultations at hk
  rw [Machine.exec_append, Machine.exec_append, flowEndConsultations_eq hreported] at hk
  have hlive : k ∈ lives.exec (lives.exec w.alerted (expiredConsultations a report))
      (liveConsultations a report) → k ≠ .fromPacket a.packet →
      k ∈ w.processor.sessionBuilder.sessions.keys ∧ k ∉ SessionBuilder.staleKeys
        a.packet.timestamp w.processor.sessionBuilder := by
    intro hmem hne
    obtain hold | ⟨heq, -⟩ := mem_exec_live hmem
    · exact ((mem_exec_expired hreported k).mp hold).imp_left (hactive k)
    · exact absurd heq hne
  cases hends : a.packet.endsFlow with
  | true =>
    rw [hends, if_pos rfl, mem_exec_final (by simp)] at hk
    have hne : k ≠ .fromPacket a.packet := Ne.symm (hk.2 _ (List.mem_singleton_self _))
    exact Or.inr ⟨hne, hlive hk.1 hne⟩
  | false =>
    rw [hends, if_neg Bool.false_ne_true] at hk
    rcases eq_or_ne k (.fromPacket a.packet) with rfl | hne
    · exact Or.inl ⟨rfl, rfl⟩
    · exact Or.inr ⟨hne, hlive hk hne⟩

end

/-! ## Every run -/

/-- The states between two packets. -/
structure Watched.Settled (w : Watched Φ repr) : Prop where
  wellFiled : w.processor.sessionBuilder.WellFiled
  active : ∀ k ∈ w.alerted, k ∈ w.processor.sessionBuilder.sessions.keys
  tracks : Tracks w.alerted w.processor.alertBook

theorem Watched.settled_init (firewall : Φ) (policy : ResponsePolicy)
    (store : ProcessedCommandStore repr) : (Watched.init firewall policy store).Settled where
  wellFiled := SessionBuilder.wellFiled_init
  active k hk := absurd hk (Finset.notMem_empty k)
  tracks _ hid := absurd hid List.not_mem_nil

theorem Watched.Settled.accounted {w : Watched Φ repr} (h : w.Settled) : AlertStateAccounted w := by
  intro id hid
  obtain ⟨k, hk, htext⟩ := h.tracks id hid
  exact ⟨k, h.active k hk, htext, hk⟩

/-- What a packet under the condition does to the alert book. -/
theorem Watched.Settled.moves {env : Platform Φ Ω} {w : Watched Φ repr} {a : Arrival Ω}
    {p' : PacketProcessor Φ repr} (h : w.Settled) (hsettles : SettlesAlerts w a)
    (hprocessed : PacketProcessor.Processed env a w.processor p') :
    ∃ book, book.state = w.processor.sessionAlertState ∧
      (∃ new, book.alerts = w.processor.alerts ++ new) ∧
      Moves w.alerted (consultations a (w.report a)) book p'.alertBook := by
  obtain ⟨new, -, hemits⟩ := hprocessed.alertBook
  rw [callsOf_eq] at hemits
  refine ⟨⟨w.processor.alerts ++ new, w.processor.sessionAlertState⟩, rfl, ⟨new, rfl⟩, ?_⟩
  exact moves_consultations
    (settled_consultations (h.wellFiled.reported a.packet) h.active hsettles) h.tracks hemits

/-- The step lemma. -/
theorem Watched.Settled.step {env : Platform Φ Ω} {w : Watched Φ repr} {a : Arrival Ω}
    (h : w.Settled) (hsettles : SettlesAlerts w a) :
    ((watch env).step w a).1.Settled ∧ FirstAlertsReported env w a := by
  have hprocessed := PacketProcessor.processed_snd env a w.processor
  have hreported := h.wellFiled.reported a.packet
  have hmoves := h.moves hsettles hprocessed
  unfold FirstAlertsReported
  rw [watch_step]
  generalize (w.processor.process env a).2 = p' at hprocessed hmoves
  obtain ⟨book, -, ⟨new, hnew⟩, htracks, reports, hreports, hfirst⟩ := hmoves
  refine ⟨⟨?_, ?_, htracks⟩, ?_⟩
  · rw [hprocessed.sessionBuilder]
    exact h.wellFiled.perPacket a.packet
  · intro k hk
    rw [hprocessed.sessionBuilder]
    exact active_of_mem_exec hreported h.active hk
  · intro call hcall
    obtain ⟨alert, hmem, hreport⟩ := hfirst call hcall
    refine ⟨alert, ?_, hreport⟩
    have halerts : p'.alerts = w.processor.alerts ++ (new ++ reports) := by
      rw [← List.append_assoc, ← hnew]
      exact hreports
    rw [halerts, List.drop_left]
    exact List.mem_append_right _ hmem

/-- Along a run in which every session that has alerted ends with an alerting final
prediction, and no two active sessions share a key text, the first alert of every
session is reported and the alert state speaks of active sessions only. -/
theorem first_alerts_reported (env : Platform Φ Ω) (firewall : Φ) (policy : ResponsePolicy)
    (store : ProcessedCommandStore repr) (as : List (Arrival Ω))
    (hsettles : (watch env).Guarded SettlesAlerts (.init firewall policy store) as) :
    (watch env).Guarded (FirstAlertsReported env) (.init firewall policy store) as ∧
      (watch env).Always AlertStateAccounted (.init firewall policy store) as := by
  have hinit := Watched.settled_init firewall policy store
  have hsteps : ∀ (w : Watched Φ repr) (a : Arrival Ω), w.Settled → SettlesAlerts w a →
      ((watch env).step w a).1.Settled ∧ FirstAlertsReported env w a :=
    fun w a hw ha => hw.step ha
  refine ⟨Machine.guarded_of_guarded _ hsteps hinit hsettles, ?_⟩
  have hsettled := Machine.always_of_guarded _ (fun w a hw ha => (hsteps w a hw ha).1) hinit
    hsettles
  rw [Machine.always_iff] at hsettled ⊢
  exact fun pre suf hsplit => (hsettled pre suf hsplit).accounted

/-- A packet of one flow at time `t`, with its flags and the answers of the models. -/
def flowArrival (t : Time) (flags : ℕ) (livePrediction flowEndPrediction : Option Prediction) :
    Arrival Unit :=
  { Arrival.plain (.frozen 1700000000 () lt_maxSeconds_1700000000)
      { srcIp := "203.0.113.10", dstIp := "10.0.0.5", protocol := 6, packetSize := 60,
        timestamp := t, srcPort := some 40000, dstPort := some 8080, tcpFlags := some flags } with
    livePrediction := livePrediction
    flowEndPrediction := flowEndPrediction }

def attackPrediction : Prediction := ⟨"DDoS", 19 / 20⟩

/-- Two flows of one 5-tuple, each reset by its only packet, which the live model
takes for an attack; the completed-flow model answers `final`. -/
def resetFlows (final : Prediction) : List (Arrival Unit) :=
  [flowArrival 0 4 (some attackPrediction) (some final),
    flowArrival 1 4 (some attackPrediction) (some final)]

def watchedProcessor : Watched Unit fun _ => "" := .init () (.init 90 25) (.empty 1 Nat.one_pos)

/-- Two flows that both models take for an attack. -/
theorem first_alerts_reported_resets :
    (watch Platform.bare).Guarded (FirstAlertsReported Platform.bare) watchedProcessor
        (resetFlows attackPrediction) ∧
      (watch Platform.bare).Always AlertStateAccounted watchedProcessor
        (resetFlows attackPrediction) :=
  first_alerts_reported Platform.bare () (.init 90 25) (.empty 1 Nat.one_pos) _ (by decide +kernel)

/-- A final prediction that does not alert leaves the key of the first flow behind,
and the first alert of the second flow is taken for a repetition. -/
theorem first_alert_swallowed :
    ¬ ∀ as : List (Arrival Unit),
      (watch Platform.bare).Guarded (FirstAlertsReported Platform.bare) watchedProcessor as ∧
        (watch Platform.bare).Always AlertStateAccounted watchedProcessor as := by
  intro h
  have hswallowed : ¬(watch Platform.bare).Guarded (FirstAlertsReported Platform.bare)
      watchedProcessor (resetFlows ⟨"Normal Traffic", 9 / 10⟩) := by decide +kernel
  exact hswallowed (h _).1

/-! ## Addresses without a hyphen -/

/-- The sessions are filed under their keys, and no source address has a hyphen. -/
def PlainSources (w : Watched Φ repr) : Prop :=
  w.processor.sessionBuilder.WellFiled ∧
    ∀ k ∈ w.processor.sessionBuilder.sessions.keys, Separated.Lacks '-' k.srcIp

/-- Where no source address has a hyphen, the texts of the keys are always distinct:
only the final predictions matter. -/
theorem settlesAlerts_of_addresses (env : Platform Φ Ω) (firewall : Φ) (policy : ResponsePolicy)
    (store : ProcessedCommandStore repr) (as : List (Arrival Ω))
    (haddress : ∀ a ∈ as, Separated.Lacks '-' a.packet.srcIp)
    (hends : (watch env).Guarded EndsAlerting (.init firewall policy store) as) :
    (watch env).Guarded SettlesAlerts (.init firewall policy store) as := by
  have hboth : (watch env).Guarded
      (fun (w : Watched Φ repr) a => EndsAlerting w a ∧ Separated.Lacks '-' a.packet.srcIp)
      (.init firewall policy store) as := by
    rw [Machine.guarded_iff] at hends ⊢
    intro pre a suf hsplit
    refine ⟨hends pre a suf hsplit, haddress a ?_⟩
    rw [hsplit]
    exact List.mem_append_right _ List.mem_cons_self
  have hinit : PlainSources (.init firewall policy store) :=
    ⟨SessionBuilder.wellFiled_init, fun k hk => absurd hk List.not_mem_nil⟩
  refine Machine.guarded_of_guarded _ ?_ hinit hboth
  rintro w a ⟨hfiled, hkeys⟩ ⟨hend, hplain⟩
  have hprocessed := PacketProcessor.processed_snd env a w.processor
  refine ⟨?_, hend, fun k hk htext => sessionKeyStr_inj (hkeys k hk) hplain htext⟩
  unfold PlainSources
  rw [watch_step, hprocessed.sessionBuilder]
  refine ⟨hfiled.perPacket a.packet, fun k hk => ?_⟩
  obtain ⟨rfl, -⟩ | ⟨-, hold, -⟩ := ((hfiled.reported a.packet).mem_sessions k).mp hk
  · exact hplain
  · exact hkeys k hold

end SmartIDS.PacketCapture
