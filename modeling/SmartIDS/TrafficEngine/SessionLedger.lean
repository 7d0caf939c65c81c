import Mathlib.Data.List.Perm.Basic
import SmartIDS.TrafficEngine.SessionBuilder
set_option autoImplicit false

/-!
# TrafficEngine: the ledger of sessions

What session building is for, without aggregates: a ledger of which packet went
into which session.  Packets are known by their arrival index, so that two equal
packets stay apart.  A session is open until it goes stale or receives a FIN or
RST packet, and is then closed once and for all.

`Ledger.Valid` is what a ledger must satisfy to be an account of a packet
sequence; `valid_exec` shows that the ledger of every sequence does.
-/

namespace SmartIDS.TrafficEngine

open SmartIDS.Foundation SmartIDS.PacketCapture

/-- A packet and its arrival index. -/
abbrev Arrival : Type := PacketData × ℕ

/-- The packets of a list of arrivals. -/
def packets (ms : List Arrival) : List PacketData := ms.map Prod.fst

/-- A 5-tuple and the packets of one of its sessions. -/
abbrev SessionRecord : Type := SessionKey × List Arrival

/-- A session that was ended while packet number `closedAt` was processed. -/
structure ClosedSession where
  key : SessionKey
  members : List Arrival
  reason : Reason
  closedAt : ℕ

/-- The record of a closed session. -/
def ClosedSession.record (c : ClosedSession) : SessionRecord := (c.key, c.members)

structure Ledger where
  /-- the open sessions -/
  active : Dict SessionKey (List Arrival)
  /-- the closed sessions, in the order they were closed -/
  closed : List ClosedSession
  /-- the packets that opened a session -/
  opened : List ℕ
  /-- the number of packets so far -/
  arrived : ℕ

namespace Ledger

def init : Ledger := ⟨.empty, [], [], 0⟩

/-- Why a session with these packets is stale, if it is. -/
def staleMembers (now : Time) (ms : List Arrival) : Option Reason :=
  match ms.head?, ms.getLast? with
  | some first, some last =>
    SessionBuilder.staleReason now first.1.timestamp last.1.timestamp
  | _, _ => none

/-- The stale sessions, as they are closed. -/
def expired (now : Time) (l : Ledger) : List ClosedSession :=
  l.active.entries.filterMap fun e =>
    (staleMembers now e.2).map fun reason => ⟨e.1, e.2, reason, l.arrived⟩

/-- Close the stale sessions. -/
def expire (now : Time) (l : Ledger) : Ledger :=
  { l with
    active := l.active.filter fun e => (staleMembers now e.2).isNone
    closed := l.closed ++ l.expired now }

/-- The packets of the session a packet belongs to, that packet included. -/
def extended (p : PacketData) (l : Ledger) : List Arrival :=
  (l.active.get? (SessionKey.fromPacket p)).getD [] ++ [(p, l.arrived)]

/-- The session a packet closes when it carries FIN or RST. -/
def ended (p : PacketData) (l : Ledger) : List ClosedSession :=
  if p.endsFlow then [⟨SessionKey.fromPacket p, l.extended p, .flowEnd, l.arrived⟩] else []

/-- File a packet: into the open session of its 5-tuple or into a new one, which
it closes when it carries FIN or RST. -/
def file (p : PacketData) (l : Ledger) : Ledger :=
  let key := SessionKey.fromPacket p
  { active := if p.endsFlow then l.active.erase key else l.active.set key (l.extended p)
    closed := l.closed ++ l.ended p
    opened := if key ∈ l.active.keys then l.opened else l.opened ++ [l.arrived]
    arrived := l.arrived + 1 }

/-- One packet. -/
def step (l : Ledger) (p : PacketData) : Ledger := (l.expire p.timestamp).file p

/-- The ledger of a packet sequence. -/
def ofPackets (ps : List PacketData) : Ledger := ps.foldl step init

theorem ofPackets_concat (ps : List PacketData) (p : PacketData) :
    ofPackets (ps ++ [p]) = (ofPackets ps).step p := by
  rw [ofPackets, List.foldl_append]
  rfl

/-- The open and the closed sessions. -/
def records (l : Ledger) : List SessionRecord := l.active.entries ++ l.closed.map (·.record)

/-- The sessions other than the open one of a 5-tuple. -/
def others (l : Ledger) (k : SessionKey) : List SessionRecord :=
  (l.active.erase k).entries ++ l.closed.map (·.record)

/-! ## How the records move -/

/-- Closing a session keeps its record. -/
theorem records_expire (now : Time) (l : Ledger) : (l.expire now).records.Perm l.records := by
  have hstale : (l.expired now).map (·.record) =
      l.active.entries.filter fun e => !(staleMembers now e.2).isNone := by
    unfold expired
    induction l.active.entries with
    | nil => rfl
    | cons e rest ih =>
      rw [List.filterMap_cons, List.filter_cons]
      cases hreason : staleMembers now e.2 with
      | none => simpa [hreason] using ih
      | some reason => simpa [hreason, ClosedSession.record] using ih
  unfold records expire
  simp only [List.map_append, hstale]
  show ((l.active.entries.filter fun e => (staleMembers now e.2).isNone) ++ _).Perm _
  refine (List.perm_append_comm.append_left _).trans ?_
  rw [← List.append_assoc]
  exact (List.filter_append_perm _ _).append_right _

/-- Before a packet is filed: the open session of its 5-tuple, if any, and the others. -/
theorem records_perm (l : Ledger) (k : SessionKey) :
    l.records.Perm (((l.active.get? k).map fun ms => (k, ms)).toList ++ l.others k) := by
  unfold records others
  rw [← List.append_assoc]
  apply List.Perm.append_right
  cases hget : l.active.get? k with
  | none =>
    rw [Dict.erase_of_notMem ((Dict.get?_eq_none_iff _ _).mp hget)]
    exact List.Perm.refl _
  | some ms => exact Dict.entries_perm_of_get? hget

/-- After it is filed: the extended session and the others. -/
theorem records_file (p : PacketData) (l : Ledger) :
    (l.file p).records.Perm
      ((SessionKey.fromPacket p, l.extended p) :: l.others (SessionKey.fromPacket p)) := by
  unfold records others file ended
  simp only
  cases p.endsFlow with
  | true =>
    simp only [if_true, List.map_append, List.map_cons, List.map_nil, ClosedSession.record]
    rw [← List.append_assoc]
    exact List.perm_append_singleton _ _
  | false =>
    simp only [Bool.false_eq_true, if_false, List.append_nil]
    exact (Dict.entries_set_perm _ _ _).append_right _

/-! ## Validity -/

/-- A session ended by a packet has exactly one FIN or RST packet, its last; one
ended by time has none. -/
def ClosedSession.EndsWell (c : ClosedSession) : Prop :=
  match c.reason with
  | .flowEnd => ∃ before last, c.members = before ++ [last] ∧ last.1.endsFlow = true ∧
      ∀ a ∈ before, a.1.endsFlow = false
  | _ => ∀ a ∈ c.members, a.1.endsFlow = false

/-- The ledger is an account of the packets. -/
structure Valid (ps : List PacketData) (l : Ledger) : Prop where
  arrived : l.arrived = ps.length
  /-- every packet is in exactly one session, once -/
  complete : (l.records.flatMap Prod.snd).Perm ps.zipIdx
  /-- every session ever opened is among the records exactly once -/
  opened : (l.records.filterMap fun r => r.2.head?.map Prod.snd).Perm l.opened
  nonempty : ∀ r ∈ l.records, r.2 ≠ []
  inOrder : ∀ r ∈ l.records, r.2.Pairwise fun a b => a.2 < b.2
  ofKey : ∀ r ∈ l.records, ∀ a ∈ r.2, SessionKey.fromPacket a.1 = r.1
  activeOpen : ∀ e ∈ l.active.entries, ∀ a ∈ e.2, a.1.endsFlow = false
  endsWell : ∀ c ∈ l.closed, ClosedSession.EndsWell c

theorem valid_init : Valid [] init := by
  constructor <;> simp [init, records]

theorem mem_filter_active {q : SessionRecord → Bool} {l : Ledger} {e : SessionRecord}
    (h : e ∈ (l.active.filter q).entries) : e ∈ l.active.entries ∧ q e = true :=
  List.mem_filter.mp h

theorem Valid.expire {ps : List PacketData} {l : Ledger} (h : Valid ps l) (now : Time) :
    Valid ps (l.expire now) := by
  have hperm := records_expire now l
  constructor
  · exact h.arrived
  · exact (hperm.flatMap_right _).trans h.complete
  · exact (hperm.filterMap _).trans h.opened
  · exact fun r hr => h.nonempty r (hperm.mem_iff.mp hr)
  · exact fun r hr => h.inOrder r (hperm.mem_iff.mp hr)
  · exact fun r hr => h.ofKey r (hperm.mem_iff.mp hr)
  · exact fun e he => h.activeOpen e (mem_filter_active he).1
  · intro c hc
    rcases List.mem_append.mp hc with hold | hnew
    · exact h.endsWell c hold
    · obtain ⟨e, he, hstale⟩ := List.mem_filterMap.mp hnew
      obtain ⟨reason, hreason, rfl⟩ := Option.map_eq_some_iff.mp hstale
      have hnone := h.activeOpen e he
      -- a sweep never gives the reason `flowEnd`
      have hne : reason ≠ .flowEnd := by
        unfold staleMembers at hreason
        split at hreason
        · exact SessionBuilder.staleReason_ne_flowEnd hreason
        · simp at hreason
      cases reason with
      | flowEnd => exact absurd rfl hne
      | idleTimeout => exact hnone
      | maxDuration => exact hnone

/-- The packets of an open session came before the one that arrives now. -/
theorem Valid.lt_arrived {ps : List PacketData} {l : Ledger} (h : Valid ps l) {r : SessionRecord}
    (hr : r ∈ l.records) {a : Arrival} (ha : a ∈ r.2) : a.2 < l.arrived := by
  have hmem : a ∈ ps.zipIdx := h.complete.mem_iff.mp (List.mem_flatMap.mpr ⟨r, hr, ha⟩)
  have := List.snd_lt_of_mem_zipIdx hmem
  rw [h.arrived]
  omega

/-- What holds of all the records but one, and of that one extended, holds of the
records after a packet is filed. -/
theorem forall_records_file {p : PacketData} {l : Ledger} {P : SessionRecord → Prop}
    (hold : ∀ r ∈ l.records, P r) (hnew : P (SessionKey.fromPacket p, l.extended p)) :
    ∀ r ∈ (l.file p).records, P r := by
  intro r hr
  rcases List.mem_cons.mp ((records_file p l).mem_iff.mp hr) with rfl | hother
  · exact hnew
  · exact hold r ((records_perm l _).mem_iff.mpr (List.mem_append_right _ hother))

theorem mem_records_of_get? {l : Ledger} {k : SessionKey} {ms : List Arrival}
    (h : l.active.get? k = some ms) : (k, ms) ∈ l.records :=
  List.mem_append_left _ ((Dict.get?_eq_some_iff _ _ _).mp h)

/-- The session a packet is filed into, before that packet. -/
theorem extended_cases (p : PacketData) (l : Ledger) :
    (SessionKey.fromPacket p ∉ l.active.keys ∧ l.extended p = [(p, l.arrived)]) ∨
      ∃ ms, l.active.get? (SessionKey.fromPacket p) = some ms ∧
        l.extended p = ms ++ [(p, l.arrived)] := by
  unfold extended
  cases hget : l.active.get? (SessionKey.fromPacket p) with
  | none => exact Or.inl ⟨(Dict.get?_eq_none_iff _ _).mp hget, rfl⟩
  | some ms => exact Or.inr ⟨ms, rfl, rfl⟩

/-- What holds of the packets of the open session and of the new one holds of the
extended session. -/
theorem forall_extended {p : PacketData} {l : Ledger} {P : Arrival → Prop}
    (hold : ∀ ms, l.active.get? (SessionKey.fromPacket p) = some ms → ∀ a ∈ ms, P a)
    (hnew : P (p, l.arrived)) : ∀ a ∈ l.extended p, P a := by
  intro a ha
  rcases extended_cases p l with ⟨-, hext⟩ | ⟨ms, hms, hext⟩
  · rw [hext] at ha
    rw [List.mem_singleton.mp ha]
    exact hnew
  · rw [hext] at ha
    rcases List.mem_append.mp ha with hmem | hlast
    · exact hold ms hms a hmem
    · rw [List.mem_singleton.mp hlast]
      exact hnew

theorem Valid.file {ps : List PacketData} {l : Ledger} (h : Valid ps l) (p : PacketData) :
    Valid (ps ++ [p]) (l.file p) := by
  have hperm := records_file p l
  have hbefore := records_perm l (SessionKey.fromPacket p)
  -- what the packet is added to holds no FIN or RST packet
  have hopen : ∀ ms, l.active.get? (SessionKey.fromPacket p) = some ms →
      ∀ a ∈ ms, a.1.endsFlow = false := fun ms hms =>
    h.activeOpen _ ((Dict.get?_eq_some_iff _ _ _).mp hms)
  constructor
  · rw [List.length_append, ← h.arrived]
    rfl
  · refine (hperm.flatMap_right _).trans ?_
    rw [List.zipIdx_append]
    refine List.Perm.trans ?_ ((hbefore.flatMap_right _).symm.trans h.complete |>.append_right _)
    simp only [List.flatMap_cons, List.flatMap_append, Nat.zero_add, ← h.arrived,
      List.zipIdx_cons, List.zipIdx_nil]
    rcases extended_cases p l with ⟨hmem, hext⟩ | ⟨ms, hms, hext⟩
    · rw [hext, (Dict.get?_eq_none_iff _ _).mpr hmem]
      exact List.perm_append_comm
    · rw [hext, hms]
      simp only [Option.map_some, Option.toList_some, List.flatMap_cons, List.flatMap_nil,
        List.append_nil, List.append_assoc]
      exact List.perm_append_comm.append_left _
  · refine (hperm.filterMap _).trans ?_
    have hheads := (hbefore.filterMap _).symm.trans h.opened
    unfold Ledger.file
    simp only
    rcases extended_cases p l with ⟨hmem, hext⟩ | ⟨ms, hms, hext⟩
    · rw [hext, if_neg hmem]
      rw [(Dict.get?_eq_none_iff _ _).mpr hmem] at hheads
      simp only [List.filterMap_cons, List.head?_cons, Option.map_some]
      exact (List.perm_append_singleton _ _).symm.trans (hheads.append_right _)
    · have hne := h.nonempty _ (mem_records_of_get? hms)
      obtain ⟨first, rest, rfl⟩ := List.exists_cons_of_ne_nil hne
      rw [hext, if_pos (Dict.mem_keys_of_get? hms)]
      rw [hms] at hheads
      exact hheads
  · apply forall_records_file h.nonempty
    simp [extended]
  · apply forall_records_file h.inOrder
    rcases extended_cases p l with ⟨-, hext⟩ | ⟨ms, hms, hext⟩
    · rw [hext]
      exact List.pairwise_singleton _ _
    · rw [hext, List.pairwise_append]
      refine ⟨h.inOrder _ (mem_records_of_get? hms), List.pairwise_singleton _ _, ?_⟩
      intro a ha b hb
      rw [List.mem_singleton.mp hb]
      exact h.lt_arrived (mem_records_of_get? hms) ha
  · apply forall_records_file h.ofKey
    exact forall_extended (fun ms hms => h.ofKey _ (mem_records_of_get? hms)) rfl
  · unfold Ledger.file
    simp only
    intro e he
    cases hends : p.endsFlow with
    | true =>
      rw [if_pos hends] at he
      exact h.activeOpen e ((Dict.mem_entries_erase_iff _ _ _).mp he).1
    | false =>
      rw [if_neg (by simp [hends])] at he
      rcases (Dict.mem_entries_set_iff _ _ _ _).mp he with rfl | ⟨hold, -⟩
      · exact forall_extended hopen hends
      · exact h.activeOpen e hold
  · intro c hc
    rcases List.mem_append.mp hc with hold | hnew
    · exact h.endsWell c hold
    · unfold ended at hnew
      cases hends : p.endsFlow with
      | false => simp [hends] at hnew
      | true =>
        rw [if_pos hends] at hnew
        rw [List.mem_singleton.mp hnew]
        refine ⟨(l.active.get? (SessionKey.fromPacket p)).getD [], (p, l.arrived), rfl, hends, ?_⟩
        cases hget : l.active.get? (SessionKey.fromPacket p) with
        | none => exact fun a ha => absurd ha List.not_mem_nil
        | some ms => exact hopen ms hget

/-- The ledger of every packet sequence accounts for it. -/
theorem valid_ofPackets (ps : List PacketData) : Valid ps (ofPackets ps) := by
  induction ps using List.reverseRecOn with
  | nil => exact valid_init
  | append_singleton ps p ih =>
    rw [ofPackets_concat]
    exact (ih.expire p.timestamp).file p

end Ledger

end SmartIDS.TrafficEngine
