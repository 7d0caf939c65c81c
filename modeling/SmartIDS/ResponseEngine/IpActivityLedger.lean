import Mathlib.Order.Bounds.Basic
import SmartIDS.Foundation.Machine
import SmartIDS.ResponseEngine.IpActivityTracker
set_option autoImplicit false

/-!
# ResponseEngine: what the IP activity tracker knows

Along any run, whatever the order of the time stamps and whatever the disk does, the
tracker knows of an IP what the records since its last insertion say.  The first and
the last detected time are those of the first and the last record, which are the
least and the greatest time as long as the records of an IP come in order.
-/

namespace SmartIDS.ResponseEngine

open SmartIDS.Foundation SmartIDS.PacketCapture SmartIDS.Python

/-- A call of `record_activity`, with the clock and the disk it meets. -/
structure ActivityCall where
  record : ActivityRecord
  recordedAt : Datetime
  disk : LogDisk

namespace IPActivityTracker

variable {s : IPActivityTracker}

/-! ## What a call leaves of the state -/

/-- What is known of the IPs is as in `s`. -/
def SameState (s t : IPActivityTracker) : Prop := t.state = s.state ∧ t.limits = s.limits

theorem keeps_onFile (x : Effect PyError File Unit) : Effect.Keeps (SameState s) (onFile x) :=
  fun _ h => h

theorem keeps_compactFileIfNeeded (disk : LogDisk) :
    Effect.Keeps (SameState s) (compactFileIfNeeded disk) := by
  refine .bind .get fun t => ?_
  split
  · exact .pure _
  · refine .bind (.modify fun _ h => h) fun _ => ?_
    split
    · exact .pure _
    · exact .ofExcept _
    · dsimp only
      split
      · exact .pure _
      · exact keeps_onFile _

/-- The tracker with the record entered, before it is pruned. -/
def noted (s : IPActivityTracker) (now : Datetime) (r : ActivityRecord) : IPActivityTracker :=
  { s with state := s.state.set r.ipAddress (s.activity now.isoformat r) }

theorem get?_noted (s : IPActivityTracker) (now : Datetime) (r : ActivityRecord) (ip : String) :
    (s.noted now r).state.get? ip =
      if ip = r.ipAddress then some (s.activity now.isoformat r) else s.state.get? ip :=
  Dict.get?_set _ _ _ _

/-- Behind the pruning, a call writes to the file and its counter only. -/
theorem recordActivity_of_ok {r : ActivityRecord} {now : Datetime}
    (hnow : Datetime.fromTimestamp r.timestamp = .ok now) (recordedAt : Datetime)
    (disk : LogDisk) (s : IPActivityTracker) :
    (recordActivity r recordedAt disk s).2.state = (s.noted now r).pruneState.state ∧
      (recordActivity r recordedAt disk s).2.limits = (s.noted now r).pruneState.limits := by
  unfold recordActivity
  rw [Effect.bind_of_ok (a := now) (t := s) (by rw [Effect.ofExcept_apply, hnow]),
    Effect.bind_of_ok (Effect.get_apply s), Effect.bind_of_ok (Effect.modify_apply _ s),
    Effect.bind_of_ok (Effect.modify_apply _ _)]
  show SameState (s.noted now r).pruneState _
  refine Effect.Keeps.bind (keeps_onFile _) (fun _ => ?_) (s.noted now r).pruneState ⟨rfl, rfl⟩
  exact .bind (.modify fun _ h => h) fun _ => keeps_compactFileIfNeeded disk

/-- A call whose time stamp is refused changes nothing. -/
theorem recordActivity_of_error {r : ActivityRecord} {e : PyError}
    (he : Datetime.fromTimestamp r.timestamp = .error e) (recordedAt : Datetime)
    (disk : LogDisk) (s : IPActivityTracker) :
    recordActivity r recordedAt disk s = (.error e, s) :=
  Effect.bind_of_error (by rw [Effect.ofExcept_apply, he])

theorem limits_pruneState (s : IPActivityTracker) : s.pruneState.limits = s.limits := by
  unfold pruneState
  split <;> rfl

/-! ## Pruning -/

/-- Pruning drops the IPs of the oldest activity, as many as there are too many. -/
theorem pruneState_spec (s : IPActivityTracker) :
    ∃ dropped kept : List String, (dropped ++ kept).Perm s.state.keys ∧
      s.pruneState.state = dropped.foldl Dict.erase s.state ∧
      dropped.length = s.state.size - s.limits.maxTrackedIps ∧
      (∀ e ∈ dropped, ∀ k ∈ kept, s.lastDetectedOf e ≤ s.lastDetectedOf k) := by
  have hsize := s.state.length_keys
  have : Std.Total fun a b => s.lastDetectedOf a ≤ s.lastDetectedOf b :=
    ⟨fun a b => le_total (s.lastDetectedOf a) (s.lastDetectedOf b)⟩
  have : IsTrans String fun a b => s.lastDetectedOf a ≤ s.lastDetectedOf b :=
    ⟨fun _ _ _ hab hbc => le_trans hab hbc⟩
  have hsorted := List.pairwise_insertionSort
    (fun a b => s.lastDetectedOf a ≤ s.lastDetectedOf b) s.state.keys
  have hperm := List.perm_insertionSort
    (fun a b => s.lastDetectedOf a ≤ s.lastDetectedOf b) s.state.keys
  generalize hips : s.state.keys.insertionSort
    (fun a b => s.lastDetectedOf a ≤ s.lastDetectedOf b) = ips at hsorted hperm
  refine ⟨ips.take (s.state.size - s.limits.maxTrackedIps),
    ips.drop (s.state.size - s.limits.maxTrackedIps), ?_, ?_, ?_, ?_⟩
  · rw [List.take_append_drop]
    exact hperm
  · unfold pruneState
    split
    · next hroom => rw [Nat.sub_eq_zero_of_le hroom, List.take_zero, List.foldl_nil]
    · rw [hips]
  · rw [List.length_take, hperm.length_eq, hsize]
    omega
  · rw [← List.take_append_drop (s.state.size - s.limits.maxTrackedIps) ips] at hsorted
    exact (List.pairwise_append.mp hsorted).2.2

/-- Pruning adds no IP, and leaves as many as there is room for. -/
theorem keys_pruneState (s : IPActivityTracker) :
    s.pruneState.state.keys ⊆ s.state.keys ∧
      s.pruneState.state.size = min s.state.size s.limits.maxTrackedIps := by
  obtain ⟨dropped, kept, hperm, hstate, hlength, -⟩ := s.pruneState_spec
  have hnodup : (dropped ++ kept).Nodup := hperm.nodup_iff.mpr s.state.nodup_keys
  have hget : ∀ ip, s.pruneState.state.get? ip = if ip ∈ dropped then none else s.state.get? ip := by
    intro ip
    rw [hstate, Dict.get?_foldl_erase]
  have hmem : ∀ ip, ip ∈ s.pruneState.state.keys ↔ ip ∈ kept := by
    intro ip
    rw [← Dict.get?_isSome_iff, hget]
    split
    · next hdropped =>
      exact iff_of_false (by simp) fun hkept =>
        List.disjoint_of_nodup_append hnodup hdropped hkept
    · next hnot =>
      rw [Dict.get?_isSome_iff, ← hperm.mem_iff, List.mem_append, or_iff_right hnot]
  have hkeys : s.pruneState.state.keys.Perm kept :=
    (List.perm_ext_iff_of_nodup s.pruneState.state.nodup_keys hnodup.of_append_right).mpr hmem
  have hsize := s.state.length_keys
  have htotal := hperm.length_eq
  rw [List.length_append] at htotal
  refine ⟨fun ip hip => hperm.subset (List.mem_append_right _ ((hmem ip).mp hip)), ?_⟩
  rw [← Dict.length_keys, hkeys.length_eq]
  omega

theorem size_pruneState_le (s : IPActivityTracker) :
    s.pruneState.state.size ≤ s.limits.maxTrackedIps :=
  s.keys_pruneState.2.trans_le (min_le_right _ _)

end IPActivityTracker

/-! ## The records behind what is known -/

/-- A record with the time it is known under. -/
structure Noted where
  time : Datetime
  action : String
  attackType : String

/-- Its entry in `action_history`. -/
def Noted.entry (n : Noted) : ActionEntry := ⟨n.time.isoformat, n.action, n.attackType⟩

/-- The record of a call, under this time. -/
def ActivityRecord.noted (r : ActivityRecord) (now : Datetime) : Noted :=
  ⟨now, r.action, r.attackType⟩

/-- What is known of an IP is what these records say. -/
structure Faithful (maxActionHistory : ℕ) (log : List Noted) (a : IpActivity) : Prop where
  first : log.head?.map (fun n => n.time.isoformat) = some a.firstDetectedTime
  last : log.getLast?.map (fun n => n.time.isoformat) = some a.lastDetectedTime
  total : a.totalAttackAttempts = log.length
  types : a.attackTypesUsed = (log.map Noted.attackType).toFinset
  history : a.actionHistory = BoundedFifo.newest maxActionHistory (log.map Noted.entry)

theorem faithful_fresh (maxActionHistory : ℕ) (now : Datetime) (r : ActivityRecord) :
    Faithful maxActionHistory [r.noted now]
      ((IpActivity.fresh now.isoformat).note maxActionHistory now.isoformat r) where
  first := rfl
  last := rfl
  total := rfl
  types := rfl
  history := rfl

theorem Faithful.note {maxActionHistory : ℕ} {log : List Noted} {a : IpActivity}
    (h : Faithful maxActionHistory log a) (now : Datetime) (r : ActivityRecord) :
    Faithful maxActionHistory (log ++ [r.noted now]) (a.note maxActionHistory now.isoformat r) where
  first := by
    cases log with
    | nil => exact absurd h.first (by simp)
    | cons n log => exact h.first
  last := by
    rw [List.getLast?_concat]
    rfl
  total := by
    rw [List.length_append, List.length_singleton, ← h.total]
    rfl
  types := by
    change insert r.attackType a.attackTypesUsed = _
    rw [h.types, List.map_append, List.toFinset_append, Finset.union_comm]
    rfl
  history := by
    change BoundedFifo.newest maxActionHistory (a.actionHistory ++ [(r.noted now).entry]) = _
    rw [h.history, BoundedFifo.newest_newest_append, List.map_append, List.map_singleton]

/-- The tracker, and the records of every IP since it was last inserted. -/
structure Logged where
  tracker : IPActivityTracker
  log : String → List Noted

namespace Logged

/-- The records of an IP, those before the call and the call's own. -/
def heard (w : Logged) (r : ActivityRecord) (now : Datetime) (ip : String) : List Noted :=
  if r.ipAddress = ip then w.log ip ++ [r.noted now] else w.log ip

/-- One call.  The records of an IP that is not tracked behind it are forgotten. -/
def next (w : Logged) (c : ActivityCall) : Logged :=
  let tracker := (IPActivityTracker.recordActivity c.record c.recordedAt c.disk w.tracker).2
  match Datetime.fromTimestamp c.record.timestamp with
  | .error _ => ⟨tracker, w.log⟩
  | .ok now =>
    ⟨tracker, fun ip => if (tracker.state.get? ip).isSome then w.heard c.record now ip else []⟩

/-- The tracker under a sequence of calls. -/
def calls : Machine Logged ActivityCall Unit where
  step w c := (w.next c, ())

/-- A tracker over a file, before any call. -/
def init (limits : TrackerLimits) (file : File) : Logged :=
  ⟨IPActivityTracker.init limits file, fun _ => []⟩

variable {w : Logged}

theorem next_tracker (w : Logged) (c : ActivityCall) :
    (w.next c).tracker = (IPActivityTracker.recordActivity c.record c.recordedAt c.disk w.tracker).2 := by
  unfold next
  cases Datetime.fromTimestamp c.record.timestamp <;> rfl

/-- What the tracker knows is what the records say, and it is not too much. -/
structure Kept (w : Logged) : Prop where
  faithful : ∀ ip a, w.tracker.state.get? ip = some a →
    Faithful w.tracker.limits.maxActionHistory (w.log ip) a
  untracked : ∀ ip, w.tracker.state.get? ip = none → w.log ip = []
  bounded : w.tracker.state.size ≤ w.tracker.limits.maxTrackedIps

theorem kept_init (limits : TrackerLimits) (file : File) : Kept (init limits file) where
  faithful _ _ h := absurd h (by simp [init, IPActivityTracker.init])
  untracked _ _ := rfl
  bounded := Nat.zero_le _

/-- With the record entered, what is known is what has been heard. -/
theorem Kept.noted (h : Kept w) (now : Datetime) (r : ActivityRecord) (ip : String) :
    (∀ a, (w.tracker.noted now r).state.get? ip = some a →
      Faithful w.tracker.limits.maxActionHistory (w.heard r now ip) a) ∧
    ((w.tracker.noted now r).state.get? ip = none → w.heard r now ip = []) := by
  unfold heard
  rw [IPActivityTracker.get?_noted]
  rcases eq_or_ne r.ipAddress ip with rfl | hne
  · rw [if_pos rfl, if_pos rfl]
    refine ⟨fun a ha => ?_, fun hnone => absurd hnone (by simp)⟩
    obtain rfl := Option.some.inj ha
    unfold IPActivityTracker.activity
    cases hget : w.tracker.state.get? r.ipAddress with
    | none =>
      rw [h.untracked _ hget]
      exact faithful_fresh _ now r
    | some a => exact (h.faithful _ a hget).note now r
  · rw [if_neg hne.symm, if_neg hne]
    exact ⟨h.faithful ip, h.untracked ip⟩

theorem next_of_error {c : ActivityCall} {e : PyError}
    (he : Datetime.fromTimestamp c.record.timestamp = .error e) : w.next c = w := by
  unfold next
  rw [IPActivityTracker.recordActivity_of_error he]
  simp only [he]

theorem next_of_ok {c : ActivityCall} {now : Datetime}
    (hnow : Datetime.fromTimestamp c.record.timestamp = .ok now) :
    (w.next c).tracker.state = (w.tracker.noted now c.record).pruneState.state ∧
      (w.next c).tracker.limits = w.tracker.limits ∧
      ∀ ip, (w.next c).log ip =
        if ((w.next c).tracker.state.get? ip).isSome then w.heard c.record now ip else [] := by
  obtain ⟨hstate, hlimits⟩ :=
    IPActivityTracker.recordActivity_of_ok hnow c.recordedAt c.disk w.tracker
  rw [next_tracker]
  refine ⟨hstate, hlimits.trans (IPActivityTracker.limits_pruneState _), fun ip => ?_⟩
  unfold next
  simp only [hnow]

/-- An IP that pruning keeps is known as before. -/
theorem get?_pruneState {s : IPActivityTracker} {ip : String} {a : IpActivity}
    (h : s.pruneState.state.get? ip = some a) : s.state.get? ip = some a := by
  obtain ⟨dropped, kept, -, hstate, -⟩ := s.pruneState_spec
  rw [hstate, Dict.get?_foldl_erase] at h
  split at h
  · exact absurd h (by simp)
  · exact h

theorem Kept.next (h : Kept w) (c : ActivityCall) : Kept (w.next c) := by
  cases hnow : Datetime.fromTimestamp c.record.timestamp with
  | error e =>
    rw [next_of_error hnow]
    exact h
  | ok now =>
    obtain ⟨hstate, hlimits, hlog⟩ := next_of_ok (w := w) hnow
    refine ⟨fun ip a ha => ?_, fun ip hnone => ?_, ?_⟩
    · rw [hlog ip, hlimits, ha]
      rw [hstate] at ha
      exact (h.noted now c.record ip).1 a (get?_pruneState ha)
    · rw [hlog ip, hnone]
      rfl
    · rw [hstate, hlimits]
      exact IPActivityTracker.size_pruneState_le _

theorem kept_exec (limits : TrackerLimits) (file : File) (cs : List ActivityCall) :
    Kept (calls.exec (init limits file) cs) :=
  @Machine.exec_history _ _ _ calls (fun _ w => Kept w) (init limits file) (kept_init limits file)
    (fun _ c _ h => h.next c) cs

/-- The last time an IP has been heard of is the time it is known under. -/
theorem Kept.lastDetectedOf_eq (h : Kept w) {now : Datetime} {r : ActivityRecord} {ip : String}
    {n : Noted} (hlast : (w.heard r now ip).getLast? = some n) :
    ip ∈ (w.tracker.noted now r).state.keys ∧
      (w.tracker.noted now r).lastDetectedOf ip = n.time.isoformat := by
  obtain ⟨hfaithful, hnone⟩ := h.noted now r ip
  cases hget : (w.tracker.noted now r).state.get? ip with
  | none =>
    rw [hnone hget] at hlast
    exact absurd hlast (by simp)
  | some a =>
    refine ⟨Dict.mem_keys_of_get? hget, ?_⟩
    have hmapped := (hfaithful a hget).last
    rw [hlast] at hmapped
    unfold IPActivityTracker.lastDetectedOf
    rw [hget]
    exact (Option.some.inj hmapped).symm

/-- One insertion makes the state too large by one IP at most, and that one is an IP
with the oldest activity. -/
theorem Kept.evicted (h : Kept w) {c : ActivityCall} {now : Datetime}
    (hnow : Datetime.fromTimestamp c.record.timestamp = .ok now) {ip : String} {n : Noted}
    (hlast : (w.heard c.record now ip).getLast? = some n)
    (hgone : (w.next c).tracker.state.get? ip = none) {other : String} {m : Noted}
    (hother : (w.heard c.record now other).getLast? = some m) : n.time ≤ m.time := by
  obtain ⟨hmem, htime⟩ := h.lastDetectedOf_eq hlast
  obtain ⟨hmem', htime'⟩ := h.lastDetectedOf_eq hother
  obtain ⟨dropped, kept, hperm, hstate, hlength, hordered⟩ :=
    (w.tracker.noted now c.record).pruneState_spec
  have hsize : (w.tracker.noted now c.record).state.size ≤ w.tracker.limits.maxTrackedIps + 1 :=
    (Dict.size_set_le _ _ _).trans (Nat.succ_le_succ h.bounded)
  have hone : dropped.length ≤ 1 := by
    rw [hlength]
    exact Nat.sub_le_iff_le_add'.mpr hsize
  have hdropped : ip ∈ dropped := by
    obtain ⟨a, ha⟩ := Dict.exists_get?_of_mem hmem
    rw [(next_of_ok (w := w) hnow).1, hstate, Dict.get?_foldl_erase, ha] at hgone
    by_contra hnot
    rw [if_neg hnot] at hgone
    exact absurd hgone (by simp)
  rw [← Datetime.isoformat_le_iff, ← htime, ← htime']
  rcases List.mem_append.mp (hperm.mem_iff.mpr hmem') with hsame | hkept
  · obtain ⟨x, rfl⟩ : ∃ x, dropped = [x] :=
      List.length_eq_one_iff.mp (le_antisymm hone (List.length_pos_of_mem hdropped))
    rw [List.mem_singleton.mp hdropped, List.mem_singleton.mp hsame]
  · exact hordered ip hdropped other hkept

theorem limits_exec (limits : TrackerLimits) (file : File) (cs : List ActivityCall) :
    (calls.exec (init limits file) cs).tracker.limits = limits := by
  refine @Machine.exec_history _ _ _ calls (fun _ w => w.tracker.limits = limits)
    (init limits file) rfl (fun _ c w hw => ?_) cs
  change (w.next c).tracker.limits = limits
  cases hnow : Datetime.fromTimestamp c.record.timestamp with
  | error e => rw [next_of_error hnow, hw]
  | ok now => rw [(next_of_ok (w := w) hnow).2.1, hw]

/-- The IPs that are tracked, with the one of a record. -/
def ipsWith (w : Logged) (r : ActivityRecord) : Finset String :=
  insert r.ipAddress w.tracker.state.keys.toFinset

theorem toFinset_keys_noted (w : Logged) (now : Datetime) (r : ActivityRecord) :
    (w.tracker.noted now r).state.keys.toFinset = w.ipsWith r := by
  ext ip
  rw [ipsWith, Finset.mem_insert, List.mem_toFinset, List.mem_toFinset]
  exact Dict.mem_keys_set _ _ _ _

theorem card_toFinset_keys {β : Type} (d : Dict String β) : d.keys.toFinset.card = d.size := by
  rw [List.toFinset_card_of_nodup d.nodup_keys, d.length_keys]

/-- Behind a record, the IPs are those of before with its own, without the surplus. -/
theorem tracked_next {c : ActivityCall} {now : Datetime}
    (hnow : Datetime.fromTimestamp c.record.timestamp = .ok now) :
    (w.next c).tracker.state.keys.toFinset ⊆ w.ipsWith c.record ∧
      (w.next c).tracker.state.size =
        min (w.ipsWith c.record).card w.tracker.limits.maxTrackedIps := by
  obtain ⟨hsub, hsize⟩ := (w.tracker.noted now c.record).keys_pruneState
  rw [(next_of_ok (w := w) hnow).1, ← w.toFinset_keys_noted now, card_toFinset_keys]
  refine ⟨fun ip hip => ?_, hsize⟩
  exact List.mem_toFinset.mpr (hsub (List.mem_toFinset.mp hip))

/-- The state is bounded, what is known of an IP is what its records say, every tracked IP
and that of a record stay while there is room, and where a call evicts the surplus, no other
one's last record is of an earlier time. -/
structure Bookkept (limits : TrackerLimits) (w : Logged) : Prop where
  size_le : w.tracker.state.size ≤ limits.maxTrackedIps
  stay : ∀ (c : ActivityCall) (now : Datetime),
    Datetime.fromTimestamp c.record.timestamp = .ok now →
      (w.ipsWith c.record).card ≤ limits.maxTrackedIps →
      (w.next c).tracker.state.keys.toFinset = w.ipsWith c.record
  surplus : ∀ (c : ActivityCall) (now : Datetime),
    Datetime.fromTimestamp c.record.timestamp = .ok now →
      (w.next c).tracker.state.keys.toFinset ⊆ w.ipsWith c.record ∧
        (w.next c).tracker.state.size = min (w.ipsWith c.record).card limits.maxTrackedIps
  kept : ∀ ip a, w.tracker.state.get? ip = some a →
    a.totalAttackAttempts = (w.log ip).length ∧
      a.attackTypesUsed = ((w.log ip).map Noted.attackType).toFinset ∧
      a.actionHistory =
        BoundedFifo.newest (min a.totalAttackAttempts limits.maxActionHistory)
          ((w.log ip).map Noted.entry)
  evicted : ∀ (c : ActivityCall) (now : Datetime),
    Datetime.fromTimestamp c.record.timestamp = .ok now → ∀ ip,
      ip = c.record.ipAddress ∨ ip ∈ w.tracker.state.keys →
      (w.next c).tracker.state.get? ip = none →
      ∃ n, (w.heard c.record now ip).getLast? = some n ∧
        ∀ other m, (w.heard c.record now other).getLast? = some m → n.time ≤ m.time

theorem Kept.exists_heard (h : Kept w) {r : ActivityRecord} (now : Datetime) {ip : String}
    (hip : ip = r.ipAddress ∨ ip ∈ w.tracker.state.keys) :
    ∃ n, (w.heard r now ip).getLast? = some n := by
  unfold heard
  split
  · exact ⟨_, List.getLast?_concat⟩
  · next hne =>
    obtain ⟨a, ha⟩ := Dict.exists_get?_of_mem (hip.resolve_left fun heq => hne heq.symm)
    have hlast := (h.faithful ip a ha).last
    cases hget : (w.log ip).getLast? with
    | none =>
      rw [hget] at hlast
      exact absurd hlast (by simp)
    | some n => exact ⟨n, rfl⟩

/-- Over every sequence of calls, whatever their time stamps and the disk. -/
theorem activity_bookkeeping (limits : TrackerLimits) (file : File) (cs : List ActivityCall) :
    Bookkept limits (calls.exec (init limits file) cs) := by
  have hkept := kept_exec limits file cs
  have hlimits := limits_exec limits file cs
  generalize calls.exec (init limits file) cs = w at hkept hlimits ⊢
  subst hlimits
  refine ⟨hkept.bounded, fun c now hnow hroom => ?_, fun c now hnow => tracked_next hnow,
    fun ip a ha => ?_, fun c now hnow ip hip hgone => ?_⟩
  · obtain ⟨hsub, hsize⟩ := tracked_next (w := w) hnow
    apply Finset.eq_of_subset_of_card_le hsub
    rw [card_toFinset_keys, hsize, min_eq_left hroom]
  · have hfaithful := hkept.faithful ip a ha
    have hlength : a.totalAttackAttempts = ((w.log ip).map Noted.entry).length := by
      rw [List.length_map]
      exact hfaithful.total
    refine ⟨hfaithful.total, hfaithful.types, ?_⟩
    rw [hlength, BoundedFifo.newest_min]
    exact hfaithful.history
  · obtain ⟨n, hn⟩ := hkept.exists_heard now hip
    exact ⟨n, hn, fun other m hm => hkept.evicted hnow hn hgone hm⟩

/-! ## Times in order -/

/-- The times of some records. -/
def times (log : List Noted) : Set Datetime := {t | ∃ n ∈ log, n.time = t}

/-- The first and the last detected time of a tracked IP are the least and the greatest
time of its records since it was inserted. -/
def Ordered (w : Logged) : Prop :=
  ∀ ip a, w.tracker.state.get? ip = some a → ∃ first last,
    IsLeast (times (w.log ip)) first ∧ IsGreatest (times (w.log ip)) last ∧
      a.firstDetectedTime = first.isoformat ∧ a.lastDetectedTime = last.isoformat

/-- The record is not earlier than the last one of its IP. -/
def InOrder (w : Logged) (c : ActivityCall) : Prop :=
  ∀ now n, Datetime.fromTimestamp c.record.timestamp = .ok now →
    (w.log c.record.ipAddress).getLast? = some n → n.time ≤ now

theorem Ordered.first_le_last (h : Ordered w) {ip : String} {a : IpActivity}
    (ha : w.tracker.state.get? ip = some a) : a.firstDetectedTime ≤ a.lastDetectedTime := by
  obtain ⟨first, last, hfirst, hlast, hfirstEq, hlastEq⟩ := h ip a ha
  rw [hfirstEq, hlastEq, Datetime.isoformat_le_iff]
  exact hfirst.2 hlast.1

theorem times_concat (log : List Noted) (n : Noted) :
    times (log ++ [n]) = insert n.time (times log) := by
  ext t
  simp only [times, List.mem_append, List.mem_singleton, Set.mem_ofPred_eq, Set.mem_insert_iff]
  constructor
  · rintro ⟨m, hm | rfl, rfl⟩
    · exact Or.inr ⟨m, hm, rfl⟩
    · exact Or.inl rfl
  · rintro (rfl | ⟨m, hm, rfl⟩)
    · exact ⟨n, Or.inr rfl, rfl⟩
    · exact ⟨m, Or.inl hm, rfl⟩

/-- A record of an IP that is tracked evicts nothing. -/
theorem Kept.get?_next_of_tracked (h : Kept w) {c : ActivityCall} {now : Datetime}
    (hnow : Datetime.fromTimestamp c.record.timestamp = .ok now)
    (htracked : c.record.ipAddress ∈ w.tracker.state.keys) (ip : String) :
    (w.next c).tracker.state.get? ip = (w.tracker.noted now c.record).state.get? ip := by
  have hsize : (w.tracker.noted now c.record).state.size ≤ w.tracker.limits.maxTrackedIps := by
    rw [IPActivityTracker.noted, Dict.size_set_of_mem _ htracked]
    exact h.bounded
  rw [(next_of_ok (w := w) hnow).1, IPActivityTracker.pruneState]
  exact congrArg (fun t : IPActivityTracker => t.state.get? ip) (if_pos hsize)

section step

variable {c : ActivityCall} {now : Datetime}
  (hnow : Datetime.fromTimestamp c.record.timestamp = .ok now)

include hnow

/-- What is known of the other IPs stays, as far as they are not evicted. -/
theorem other_next {ip : String} {a : IpActivity} (hne : ip ≠ c.record.ipAddress)
    (ha : (w.next c).tracker.state.get? ip = some a) :
    w.tracker.state.get? ip = some a ∧ (w.next c).log ip = w.log ip := by
  obtain ⟨hstate, -, hlog⟩ := next_of_ok (w := w) hnow
  have hlogs : (w.next c).log ip = w.log ip := by
    rw [hlog ip, ha]
    exact if_neg hne.symm
  rw [hstate] at ha
  have hnoted := get?_pruneState ha
  rw [IPActivityTracker.get?_noted, if_neg hne] at hnoted
  exact ⟨hnoted, hlogs⟩

theorem log_next {a : IpActivity}
    (ha : (w.next c).tracker.state.get? c.record.ipAddress = some a) :
    (w.next c).log c.record.ipAddress =
      w.log c.record.ipAddress ++ [c.record.noted now] := by
  rw [(next_of_ok (w := w) hnow).2.2, ha, Option.isSome_some, if_pos rfl]
  exact if_pos rfl

/-- The only record of an IP is its first and its last one. -/
theorem Ordered.next_of_untracked (hkept : Kept w) (h : Ordered w)
    (hget : w.tracker.state.get? c.record.ipAddress = none) : Ordered (w.next c) := by
  intro ip a ha
  rcases eq_or_ne ip c.record.ipAddress with rfl | hne
  · have hlog := log_next hnow ha
    rw [hkept.untracked _ hget, List.nil_append] at hlog
    have htimes : times [c.record.noted now] = {now} := by
      rw [← List.nil_append [c.record.noted now], times_concat]
      simp [times, ActivityRecord.noted]
    have hfaithful := (hkept.next c).faithful _ a ha
    rw [hlog] at hfaithful
    rw [hlog, htimes]
    exact ⟨now, now, isLeast_singleton, isGreatest_singleton,
      (Option.some.inj hfaithful.first).symm, (Option.some.inj hfaithful.last).symm⟩
  · obtain ⟨hsame, hlogs⟩ := other_next hnow hne ha
    rw [hlogs]
    exact h ip a hsame

/-- A further record keeps the times in order exactly if none was later. -/
theorem Ordered.next_iff_of_tracked (hkept : Kept w) (h : Ordered w) {old : IpActivity}
    (hget : w.tracker.state.get? c.record.ipAddress = some old) {n : Noted}
    (hn : (w.log c.record.ipAddress).getLast? = some n) :
    Ordered (w.next c) ↔ n.time ≤ now := by
  have hafter := hkept.get?_next_of_tracked hnow (Dict.mem_keys_of_get? hget)
    c.record.ipAddress
  rw [IPActivityTracker.get?_noted, if_pos rfl, IPActivityTracker.activity, hget] at hafter
  have hlog := log_next hnow hafter
  obtain ⟨first, last, hfirst, hlast, hfirstEq, hlastEq⟩ := h _ old hget
  have htime : n.time = last := by
    have hmapped := (hkept.faithful _ old hget).last
    rw [hn, hlastEq] at hmapped
    exact Datetime.isoformat_injective (Option.some.inj hmapped)
  rw [htime]
  constructor
  · intro hordered
    obtain ⟨first', last', -, hlast', -, hlastEq'⟩ := hordered _ _ hafter
    obtain rfl : now = last' := Datetime.isoformat_injective hlastEq'
    rw [hlog, times_concat] at hlast'
    exact hlast'.2 (Set.mem_insert_of_mem _ hlast.1)
  · intro hle ip a ha
    rcases eq_or_ne ip c.record.ipAddress with rfl | hne
    · obtain rfl := Option.some.inj (hafter.symm.trans ha)
      rw [hlog, times_concat]
      refine ⟨first, now, ⟨Set.mem_insert_of_mem _ hfirst.1, ?_⟩, ⟨Set.mem_insert _ _, ?_⟩,
        hfirstEq, rfl⟩
      · rintro t (rfl | ht)
        · exact (hfirst.2 hlast.1).trans hle
        · exact hfirst.2 ht
      · rintro t (rfl | ht)
        · exact le_rfl
        · exact (hlast.2 ht).trans hle
    · obtain ⟨hsame, hlogs⟩ := other_next hnow hne ha
      rw [hlogs]
      exact h ip a hsame

end step

/-- A call keeps the times in order exactly if its record is. -/
theorem Ordered.next_iff (hkept : Kept w) (h : Ordered w) (c : ActivityCall) :
    Ordered (w.next c) ↔ InOrder w c := by
  unfold InOrder
  cases hnow : Datetime.fromTimestamp c.record.timestamp with
  | error e =>
    rw [next_of_error hnow]
    exact iff_of_true h fun _ _ hok => absurd hok (by simp)
  | ok now =>
    cases hn : (w.log c.record.ipAddress).getLast? with
    | none =>
      have hget : w.tracker.state.get? c.record.ipAddress = none := by
        cases hget : w.tracker.state.get? c.record.ipAddress with
        | none => rfl
        | some old => exact absurd (hkept.faithful _ old hget).last (by rw [hn]; simp)
      exact iff_of_true (h.next_of_untracked hnow hkept hget) fun _ _ _ hlast =>
        absurd hlast (by simp)
    | some n =>
      cases hget : w.tracker.state.get? c.record.ipAddress with
      | none =>
        rw [hkept.untracked _ hget] at hn
        exact absurd hn (by simp)
      | some old =>
        rw [h.next_iff_of_tracked hnow hkept hget hn]
        simp

/-- Through any run, the detected times are in order exactly if every record of a
tracked IP is no earlier than the one before. -/
theorem ordered_always_iff (limits : TrackerLimits) (file : File) (cs : List ActivityCall) :
    calls.Always Ordered (init limits file) cs ↔ calls.Guarded InOrder (init limits file) cs :=
  calls.always_iff_guarded_under (fun _ c hkept => hkept.next c)
    (fun _ c hkept hordered => hordered.next_iff hkept c) (kept_init limits file)
    fun _ _ ha => absurd ha (by simp [init, IPActivityTracker.init])

/-- A record at the tenth second, and one from the capture at the fifth. -/
def laggingCalls : List ActivityCall :=
  [⟨⟨"10.0.0.1", "scan", "blocked", 10⟩, ⟨62135596810000000, by decide⟩, .working⟩,
    ⟨⟨"10.0.0.1", "scan", "watchlist", 5⟩, ⟨62135596811000000, by decide⟩, .working⟩]

theorem lagging_record_disorders :
    ¬ calls.Always Ordered (init (.init none none none none fun _ => none) none) laggingCalls := by
  intro halways
  have hordered := halways.2.2
  have hstate : (((calls.exec (init (.init none none none none fun _ => none) none)
      laggingCalls).tracker.state.get? "10.0.0.1").map fun a =>
        (a.firstDetectedTime, a.lastDetectedTime)) =
      some ("1970-01-01T00:00:10+00:00", "1970-01-01T00:00:05+00:00") := by
    decide +kernel
  obtain ⟨a, ha, htimes⟩ := Option.map_eq_some_iff.mp hstate
  have hle := Ordered.first_le_last hordered ha
  rw [(Prod.mk.inj htimes).1, (Prod.mk.inj htimes).2] at hle
  exact absurd hle (by decide)

end Logged

end SmartIDS.ResponseEngine
