import Mathlib.Algebra.BigOperators.Group.List.Basic
import Mathlib.Tactic.Abel
import SmartIDS.TrafficEngine.WellFiled
set_option autoImplicit false

/-!
# TrafficEngine: what adds up over the sessions

A measure that every packet adds to its session is conserved by the builder:
what the sessions it holds and those it has handed out weigh is what the packets
weigh, however the packets are spread over sessions and whenever those end.
-/

namespace SmartIDS.TrafficEngine

open SmartIDS.Foundation SmartIDS.PacketCapture

namespace TrafficSession

/-- The 5-tuple of a session. -/
def key (s : TrafficSession) : SessionKey where
  srcIp := s.srcIp
  dstIp := s.dstIp
  protocol := s.protocol
  srcPort := s.srcPort
  dstPort := s.dstPort

@[simp] theorem key_opened (p : PacketData) : (opened p).key = SessionKey.fromPacket p := rfl

@[simp] theorem key_update (s : TrafficSession) (p : PacketData) : (s.update p).key = s.key := by
  unfold update updateTcpFlags
  dsimp only
  split_ifs <;> rfl

@[simp] theorem totalBytes_update (s : TrafficSession) (p : PacketData) :
    (s.update p).totalBytes = s.totalBytes + p.packetSize := by
  unfold update updateTcpFlags
  dsimp only
  split_ifs <;> rfl

end TrafficSession

namespace SessionBuilder

open TrafficSession

/-! ## The sessions after one packet -/

/-- A session after a packet is the one the packet went into, or was there before. -/
theorem get?_perPacket {p : PacketData} {b : SessionBuilder} {k : SessionKey} {s : TrafficSession}
    (hs : (perPacket p b).2.sessions.get? k = some s) :
    (k = SessionKey.fromPacket p ∧ s = sessionAfter p (sweep p.timestamp b).2) ∨
      (k ≠ SessionKey.fromPacket p ∧ (sweep p.timestamp b).2.sessions.get? k = some s) := by
  rw [perPacket_eq] at hs
  simp only [(admitted p (sweep p.timestamp b).2).sessions] at hs
  rcases eq_or_ne k (SessionKey.fromPacket p) with rfl | hne
  · split_ifs at hs
    · simp at hs
    · rw [Dict.get?_set_self, Option.some.injEq] at hs
      exact Or.inl ⟨rfl, hs.symm⟩
  · split_ifs at hs
    · exact Or.inr ⟨hne, by rwa [Dict.get?_erase_of_ne _ hne] at hs⟩
    · exact Or.inr ⟨hne, by rwa [Dict.get?_set_of_ne _ _ hne] at hs⟩

/-- A session that is left after a sweep was there before. -/
theorem get?_of_sweep {now : Time} {b : SessionBuilder} {k : SessionKey} {s : TrafficSession}
    (hs : (sweep now b).2.sessions.get? k = some s) :
    b.sessions.get? k = some s ∧ k ∉ staleKeys now b := by
  have hkey := (mem_keys_sweep now b k).mp (Dict.mem_keys_of_get? hs)
  rw [get?_sweep, Option.filter_eq_some_iff] at hs
  exact ⟨hs.1, hkey.2⟩

/-- Every session is filed under its own 5-tuple. -/
def OwnKeys (b : SessionBuilder) : Prop := ∀ k s, b.sessions.get? k = some s → s.key = k

theorem ownKeys_init : OwnKeys init := by
  intro k s hs
  cases hs

theorem OwnKeys.sweep {b : SessionBuilder} (h : OwnKeys b) (now : Time) :
    OwnKeys (sweep now b).2 := fun k s hs => h k s (get?_of_sweep hs).1

theorem OwnKeys.sessionAfter {b : SessionBuilder} (h : OwnKeys b) (p : PacketData) :
    (sessionAfter p b).key = SessionKey.fromPacket p := by
  unfold SessionBuilder.sessionAfter
  rw [key_update]
  cases hget : b.sessions.get? (SessionKey.fromPacket p) with
  | none => rfl
  | some s => exact h _ s hget

theorem OwnKeys.perPacket {b : SessionBuilder} (h : OwnKeys b) (p : PacketData) :
    OwnKeys (perPacket p b).2 := by
  intro k s hs
  rcases get?_perPacket hs with ⟨rfl, rfl⟩ | ⟨-, hold⟩
  · exact (h.sweep _).sessionAfter p
  · exact h.sweep _ k s hold

/-! ## Conservation -/

/-- A measure of sessions to which every packet adds its share. -/
structure Additive {M : Type} [AddCommMonoid M] (weight : TrafficSession → M)
    (share : PacketData → M) : Prop where
  opened : ∀ p, weight (opened p) = 0
  update : ∀ s p, weight (s.update p) = weight s + share p

theorem additive_packetCount : Additive TrafficSession.packetCount fun _ => 1 :=
  ⟨fun _ => rfl, packetCount_update⟩

theorem additive_totalBytes : Additive TrafficSession.totalBytes PacketData.packetSize :=
  ⟨fun _ => rfl, totalBytes_update⟩

section weight

variable {M : Type} [AddCommMonoid M] {weight : TrafficSession → M} {share : PacketData → M}

/-- What the sessions of the builder weigh together. -/
def weigh (weight : TrafficSession → M) (b : SessionBuilder) : M :=
  (b.sessions.entries.map fun e => weight e.2).sum

/-- What the sessions handed out weigh together. -/
def weighAll (weight : TrafficSession → M) (items : List Finalized) : M :=
  (items.map fun f => weight f.session).sum

theorem weighAll_append (items items' : List Finalized) :
    weighAll weight (items ++ items') = weighAll weight items + weighAll weight items' := by
  rw [weighAll, List.map_append, List.sum_append]
  rfl

variable (weight) in
/-- Expiry moves weight from the sessions to those handed out. -/
theorem weigh_sweep {b : SessionBuilder} (hdrained : b.pendingFinalizations = []) (now : Time) :
    weighAll weight (sweep now b).1 + weigh weight (sweep now b).2 = weigh weight b := by
  have hitems : (sweep now b).1 = b.sessions.entries.filterMap (staleFinalized now) := by
    show (expireStaleSessions now b).pendingFinalizations = _
    rw [pending_expireStaleSessions, hdrained, List.nil_append]
  have hleft : (sweep now b).2.sessions.entries = b.sessions.entries.filter (fresh now) := by
    show (expireStaleSessions now b).sessions.entries = _
    rw [sessions_expireStaleSessions]
    rfl
  unfold weigh weighAll
  rw [hitems, hleft]
  induction b.sessions.entries with
  | nil => exact add_zero 0
  | cons e entries ih =>
    rw [List.map_cons, List.sum_cons, ← ih, List.filterMap_cons, List.filter_cons]
    cases hfresh : fresh now e with
    | true =>
      have hnone : staleFinalized now e = none := by
        unfold fresh at hfresh
        rw [staleFinalized, Option.isNone_iff_eq_none.mp hfresh]
        rfl
      rw [hnone, if_pos rfl, List.map_cons, List.sum_cons]
      abel
    | false =>
      obtain ⟨f, hf⟩ := (fresh_eq_false_iff now e).mp hfresh
      rw [hf, if_neg Bool.false_ne_true]
      dsimp only
      rw [List.map_cons, List.sum_cons, (of_staleFinalized hf).2]
      abel

/-- The sessions other than that of a 5-tuple, and that one. -/
theorem weigh_eq (b : SessionBuilder) (k : SessionKey) :
    weigh weight b = ((b.sessions.get? k).map weight).getD 0 +
      (((b.sessions.erase k).entries).map fun e => weight e.2).sum := by
  unfold weigh
  cases hget : b.sessions.get? k with
  | none =>
    rw [Dict.erase_of_notMem ((Dict.get?_eq_none_iff _ _).mp hget)]
    exact (zero_add _).symm
  | some s =>
    rw [((Dict.entries_perm_of_get? hget).map _).sum_eq, List.map_cons, List.sum_cons]
    rfl

theorem Additive.sessionAfter (h : Additive weight share) (p : PacketData) (b : SessionBuilder) :
    weight (sessionAfter p b) =
      ((b.sessions.get? (SessionKey.fromPacket p)).map weight).getD 0 + share p := by
  unfold SessionBuilder.sessionAfter
  rw [h.update]
  cases b.sessions.get? (SessionKey.fromPacket p) with
  | none => rw [Option.getD_none, h.opened, Option.map_none, Option.getD_none]
  | some s => rfl

/-- Admitting a packet adds its share. -/
theorem Additive.receive (h : Additive weight share) (p : PacketData) (b : SessionBuilder) :
    weighAll weight (receive p b).1.flowEnd.toList + weigh weight (receive p b).2 =
      weigh weight b + share p := by
  have hadmitted := admitted p b
  rw [weigh_eq b (SessionKey.fromPacket p), hadmitted.flowEnd]
  unfold weigh
  rw [hadmitted.sessions]
  have hsession := h.sessionAfter p b
  split_ifs
  · unfold weighAll
    simp only [Option.toList_some, List.map_cons, List.map_nil, List.sum_cons, List.sum_nil,
      hsession]
    abel
  · rw [((Dict.entries_set_perm _ _ _).map _).sum_eq, List.map_cons, List.sum_cons, hsession]
    unfold weighAll
    simp only [Option.toList_none, List.map_nil, List.sum_nil]
    abel

/-- One packet: what it hands out and what it leaves weigh its share more. -/
theorem Additive.perPacket (h : Additive weight share) (p : PacketData) {b : SessionBuilder}
    (hdrained : b.pendingFinalizations = []) :
    weighAll weight (perPacket p b).1.handedOut + weigh weight (perPacket p b).2 =
      weigh weight b + share p := by
  have hsweep := weigh_sweep weight hdrained p.timestamp
  have hreceive := h.receive p (sweep p.timestamp b).2
  rw [perPacket_eq, PacketReport.handedOut, weighAll_append, add_assoc, hreceive, ← add_assoc,
    hsweep]

end weight

end SessionBuilder

end SmartIDS.TrafficEngine
