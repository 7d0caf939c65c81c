import SmartIDS.ThreatDetection.TrackedSources
set_option autoImplicit false

/-!
# ThreatDetection: the detector's bookkeeping along a run

The queues are trimmed at their heads, so with time stamps out of order an
observation may be popped late, or early behind another one.  What is popped early
is older than something still queued, or older than the last sweep's cutoff; and
the sweeps' cutoffs never decrease.  When the idle phase finds the queues of a
source empty, everything it was sent is therefore out of the windows.
-/

namespace SmartIDS.ThreatDetection

open SmartIDS.Foundation SmartIDS.PacketCapture

namespace HeuristicDetector

/-! ## The packets of a source -/

/-- The packets of a source, one more packet seen. -/
def heard (s : String) (log : List PacketData) (p : PacketData) : List PacketData :=
  if p.srcIp = s then log ++ [p] else log

/-- One packet evaluated, and the packets of a source that it leaves recorded. -/
def record (cfg : HeuristicConfig) (s : String) (acc : HeuristicDetector × List PacketData)
    (p : PacketData) : HeuristicDetector × List PacketData :=
  let d := (acc.1.evaluatePacket cfg p).1
  (d, if s ∈ d.trackedIps then heard s acc.2 p else [])

/-- The packets of a source since the detector began to track it. -/
def recorded (cfg : HeuristicConfig) (s : String) (packets : List PacketData) :
    List PacketData :=
  (packets.foldl (record cfg s) ({}, [])).2

theorem fst_foldl_record (cfg : HeuristicConfig) (s : String) (packets : List PacketData) :
    (packets.foldl (record cfg s) ({}, [])).1 = (machine cfg).exec {} packets := by
  induction packets using List.reverseRecOn with
  | nil => rfl
  | append_singleton packets p ih =>
    rw [List.foldl_append, Machine.exec_concat, ← ih]
    rfl

theorem recorded_concat (cfg : HeuristicConfig) (s : String) (packets : List PacketData)
    (p : PacketData) :
    recorded cfg s (packets ++ [p]) =
      if s ∈ ((machine cfg).exec {} (packets ++ [p])).trackedIps then
        heard s (recorded cfg s packets) p
      else [] := by
  rw [Machine.exec_concat, ← fst_foldl_record cfg s, recorded, List.foldl_append]
  rfl

end HeuristicDetector

namespace QueueKind

variable {β : Type} (K : QueueKind β)

theorem series_heard (log : List PacketData) (p : PacketData) (s : String) :
    K.series (HeuristicDetector.heard s log p) s = K.series log s ++ (K.ownEntry s p).toList := by
  unfold HeuristicDetector.heard
  split_ifs with hown
  · exact K.series_concat log p s
  · rw [ownEntry, if_neg (Ne.symm hown)]
    exact (List.append_nil _).symm

/-- An observation that the queue accounts for, although it may have been popped:
something queued is no older, or the last sweep's cutoff is later. -/
def Accounted (q : List β) (lastPrunedAt : Option Time) (x : β) : Prop :=
  (∃ y ∈ q, K.stamp x ≤ K.stamp y) ∨
    ∃ last, lastPrunedAt = some last ∧ K.stamp x < last - K.window

/-- A packet's own observation, pushed and trimmed at its own cutoff. -/
theorem mem_trim_concat (q : List β) (x : β) :
    x ∈ Window.trim K.stamp (K.stamp x - K.window) (q ++ [x]) := by
  have hwindow := K.window_nonneg
  rcases Window.mem_trim_or_lt K.stamp (K.stamp x - K.window)
    (List.mem_append_right q (List.mem_singleton_self x)) with hmem | hlt
  · exact hmem
  · linarith only [hlt, hwindow]

/-- Pushing an observation keeps the account: what is popped is older than it. -/
theorem Accounted.push {q : List β} {last : Option Time} {x : β} (h : K.Accounted q last x)
    (z : β) :
    K.Accounted (Window.trim K.stamp (K.stamp z - K.window) (q ++ [z])) last x := by
  have hwindow := K.window_nonneg
  rcases h with ⟨y, hy, hle⟩ | hswept
  · rcases Window.mem_trim_or_lt K.stamp (K.stamp z - K.window)
      (List.mem_append_left [z] hy) with hmem | hlt
    · exact Or.inl ⟨y, hmem, hle⟩
    · exact Or.inl ⟨z, K.mem_trim_concat q z, by linarith only [hle, hlt, hwindow]⟩
  · exact Or.inr hswept

/-- A later sweep keeps the account: what it pops is older than its cutoff. -/
theorem Accounted.sweep {q : List β} {last : Option Time} {x : β} (h : K.Accounted q last x)
    {now : Time} (hlate : ∀ t, last = some t → t ≤ now) :
    K.Accounted (Window.trim K.stamp (now - K.window) q) (some now) x := by
  rcases h with ⟨y, hy, hle⟩ | ⟨t, ht, hlt⟩
  · rcases Window.mem_trim_or_lt K.stamp (now - K.window) hy with hmem | hpopped
    · exact Or.inl ⟨y, hmem, hle⟩
    · exact Or.inr ⟨now, rfl, lt_of_le_of_lt hle hpopped⟩
  · have := hlate t ht
    exact Or.inr ⟨now, rfl, by linarith only [hlt, this]⟩

/-- A sweep that empties the queue comes after everything the queue accounts for. -/
theorem Accounted.lt_of_trim_eq_nil {q : List β} {last : Option Time} {x : β}
    (h : K.Accounted q last x) {now : Time} (hlate : ∀ t, last = some t → t ≤ now)
    (hempty : Window.trim K.stamp (now - K.window) q = []) : K.stamp x < now - K.window := by
  rcases h.sweep K hlate with ⟨y, hy, -⟩ | ⟨t, ht, hlt⟩
  · rw [hempty] at hy
    exact absurd hy List.not_mem_nil
  · rw [Option.some.inj ht]
    exact hlt

end QueueKind

namespace HeuristicDetector

/-! ## What the detector remembers of a source -/

/-- The last-seen time of a source is its last packet's, its queues hold some of
its observations and account for all. -/
structure Remembers (s : String) (log : List PacketData) (d : HeuristicDetector) : Prop where
  own : ∀ q ∈ log, q.srcIp = s
  lastSeen : d.lastSeen.get? s = log.getLast?.map PacketData.timestamp
  queued : ∀ {β : Type} (K : QueueKind β), ((K.proj d).queue s).Sublist (K.series log s)
  accounted : ∀ {β : Type} (K : QueueKind β), ∀ x ∈ K.series log s,
    K.Accounted ((K.proj d).queue s) d.lastPrunedAt x

/-- A source that is not tracked has left nothing. -/
theorem remembers_nil {d : HeuristicDetector} (hkeys : d.KeysAgree) {s : String}
    (hs : s ∉ d.trackedIps) : d.Remembers s [] where
  own q hq := absurd hq List.not_mem_nil
  lastSeen := by
    rw [Dict.get?_eq_none_iff _ _ |>.mpr fun hmem => hs ((hkeys.mem_lastSeen s).mp hmem)]
    rfl
  queued K := by
    rw [K.queue_of_notMem hs]
    exact List.nil_sublist _
  accounted K x hx := absurd hx List.not_mem_nil

theorem get?_touch {β : Type} (src s : String) (t : Time) (entry : Option β)
    (d : Dict String Time) :
    (touch src t entry d).get? s = if entry.isSome ∧ s = src then some t else d.get? s := by
  cases entry with
  | none => rfl
  | some x =>
    rw [touch, Dict.get?_set]
    exact if_congr ⟨fun hs => ⟨rfl, hs⟩, And.right⟩ rfl rfl

theorem get?_lastSeen_append (d : HeuristicDetector) (p : PacketData) (s : String) :
    (d.append p).lastSeen.get? s = if s = p.srcIp then some p.timestamp else d.lastSeen.get? s := by
  have htouched : (d.append p).lastSeen = touch p.srcIp p.timestamp (synOnlyEntry p)
    (touch p.srcIp p.timestamp (dstPortEntry p)
      (touch p.srcIp p.timestamp (timeEntry p) d.lastSeen)) := rfl
  rw [htouched, get?_touch, get?_touch, get?_touch]
  rcases eq_or_ne s p.srcIp with hs | hs
  · rw [if_pos hs]
    split_ifs with hsyn hport htime
    · rfl
    · rfl
    · rfl
    · exact absurd ⟨rfl, hs⟩ htime
  · have hnot : ∀ entry : Prop, ¬ (entry ∧ s = p.srcIp) := fun _ hboth => hs hboth.2
    rw [if_neg (hnot _), if_neg (hnot _), if_neg (hnot _), if_neg hs]

theorem Remembers.append {s : String} {log : List PacketData} {d : HeuristicDetector}
    (h : d.Remembers s log) (p : PacketData) : (d.append p).Remembers s (heard s log p) where
  own q hq := by
    unfold heard at hq
    split_ifs at hq with hown
    · rcases List.mem_append.mp hq with hq | hq
      · exact h.own q hq
      · rw [List.mem_singleton.mp hq]
        exact hown
    · exact h.own q hq
  lastSeen := by
    rw [get?_lastSeen_append, heard]
    rcases eq_or_ne s p.srcIp with hs | hs
    · rw [if_pos hs, if_pos hs.symm, List.getLast?_concat]
      rfl
    · rw [if_neg hs, if_neg hs.symm]
      exact h.lastSeen
  queued K := by
    rw [K.queue_append, K.series_heard]
    cases K.ownEntry s p with
    | none => exact (h.queued K).trans (List.sublist_append_left _ _)
    | some x => exact (Window.trim_sublist _ _ _).trans ((h.queued K).append_right [x])
  accounted K x hx := by
    rw [K.series_heard] at hx
    rw [K.queue_append]
    cases hown : K.ownEntry s p with
    | none =>
      rw [hown] at hx
      exact h.accounted K x (by rwa [Option.toList_none, List.append_nil] at hx)
    | some z =>
      rw [hown] at hx
      show K.Accounted _ d.lastPrunedAt x
      simp only
      rw [← K.stamp_ownEntry hown]
      rcases List.mem_append.mp hx with hx | hx
      · exact (h.accounted K x hx).push K z
      · rw [List.mem_singleton.mp hx]
        exact Or.inl ⟨z, K.mem_trim_concat _ z, le_refl _⟩

/-- The sweep keeps the account of every source it keeps. -/
theorem Remembers.prune {cfg : HeuristicConfig} {s : String} {log : List PacketData}
    {d : HeuristicDetector} (h : d.Remembers s log) {now : Time}
    (hlate : ∀ t, d.lastPrunedAt = some t → t ≤ now)
    (hs : s ∈ ((d.dropIdle now).evictOverflow cfg).trackedIps) :
    (((d.dropIdle now).evictOverflow cfg).prunedAt now).Remembers s log := by
  obtain ⟨hlast, hqueue⟩ := evictOverflow_of_mem hs
  have hidle : s ∈ (d.dropIdle now).trackedIps := trackedIps_evictOverflow_subset cfg _ hs
  have hkept : ∀ {β : Type} (K : QueueKind β),
      (K.proj (((d.dropIdle now).evictOverflow cfg).prunedAt now)).queue s =
        Window.trim K.stamp (now - K.window) ((K.proj d).queue s) := by
    intro β K
    rw [queue_prunedAt, hqueue, queue_dropIdle]
  constructor
  · exact h.own
  · rw [lastSeen_prunedAt, hlast, lastSeen_dropIdle hidle]
    exact h.lastSeen
  · intro β K
    rw [hkept]
    exact (Window.trim_sublist _ _ _).trans (h.queued K)
  · intro β K x hx
    rw [hkept, lastPrunedAt_prunedAt]
    exact (h.accounted K x hx).sweep K hlate

/-- A sweep is never earlier than the one before it. -/
theorem le_of_sweepDue {cfg : HeuristicConfig} {lastPrunedAt : Option Time} {now : Time}
    (hdue : sweepDue cfg.pruneIntervalSeconds lastPrunedAt now = true) :
    ∀ t, lastPrunedAt = some t → t ≤ now := by
  intro t ht
  rw [ht] at hdue
  have hinterval := cfg.pruneIntervalSeconds_pos
  have hspaced : cfg.pruneIntervalSeconds ≤ now - t := of_decide_eq_true hdue
  linarith only [hinterval, hspaced]

/-- One packet: the source is remembered, or it is not tracked any more. -/
theorem Remembers.observe {s : String} {log : List PacketData} {d : HeuristicDetector}
    (h : d.Remembers s log) (hkeys : d.KeysAgree) (cfg : HeuristicConfig) (p : PacketData) :
    (d.observe cfg p).Remembers s
      (if s ∈ (d.observe cfg p).trackedIps then heard s log p else []) := by
  split_ifs with htracked
  · have happend := h.append p
    by_cases hdue : sweepDue cfg.pruneIntervalSeconds d.lastPrunedAt p.timestamp = true
    · rw [observe_of_due hdue, trackedIps_prunedAt] at htracked
      rw [observe_of_due hdue]
      exact happend.prune (le_of_sweepDue hdue) htracked
    · rw [observe_of_not_due hdue]
      exact happend
  · exact remembers_nil (hkeys.observe cfg p) htracked

/-- What holds of the detector after any packets. -/
structure Recalled (cfg : HeuristicConfig) (packets : List PacketData) (d : HeuristicDetector) :
    Prop where
  enabled : d.enabled = true
  keys : d.KeysAgree
  remembers : ∀ s, d.Remembers s (recorded cfg s packets)

theorem recalled_exec (cfg : HeuristicConfig) (packets : List PacketData) :
    Recalled cfg packets ((machine cfg).exec {} packets) := by
  induction packets using List.reverseRecOn with
  | nil => exact ⟨rfl, keysAgree_init, fun s => remembers_nil keysAgree_init List.not_mem_nil⟩
  | append_singleton packets p ih =>
    have hstep : ((machine cfg).step ((machine cfg).exec {} packets) p).1 =
        ((machine cfg).exec {} packets).observe cfg p :=
      congrArg Prod.fst (evaluatePacket_of_enabled ih.enabled p)
    constructor
    · rw [Machine.exec_concat, hstep, enabled_observe_eq]
      exact ih.enabled
    · rw [Machine.exec_concat, hstep]
      exact ih.keys.observe cfg p
    · intro s
      rw [recorded_concat, Machine.exec_concat, hstep]
      exact (ih.remembers s).observe ih.keys cfg p

/-! ## What the sweep drops -/

/-- Nothing a packet was recorded for is within its window. -/
structure OutOfWindows (now : Time) (q : PacketData) : Prop where
  packet : q.timestamp < now - burstWindowSeconds
  dstPort : (dstPortEntry q).isSome → q.timestamp < now - portSweepWindowSeconds
  synOnly : (synOnlyEntry q).isSome → q.timestamp < now - synWindowSeconds

/-- What the idle phase drops has left the windows. -/
theorem Remembers.outOfWindows {s : String} {log : List PacketData} {d : HeuristicDetector}
    (h : d.Remembers s log) {now : Time} (hlate : ∀ t, d.lastPrunedAt = some t → t ≤ now)
    (hdropped : s ∉ (d.dropIdle now).trackedIps) {q : PacketData} (hq : q ∈ log) :
    OutOfWindows now q := by
  have hold : ∀ {β : Type} (K : QueueKind β), (K.entry q).isSome →
      q.timestamp < now - K.window := by
    intro β K hentry
    obtain ⟨x, hx⟩ := Option.isSome_iff_exists.mp hentry
    have hmem : x ∈ K.series log s := by
      refine List.mem_filterMap.mpr ⟨q, hq, ?_⟩
      rw [QueueKind.ownEntry, if_pos (h.own q hq).symm, hx]
    have hempty : Window.trim K.stamp (now - K.window) ((K.proj d).queue s) = [] := by
      rw [← queue_dropIdle]
      exact K.queue_of_notMem hdropped
    rw [← K.stamp_entry q x hx]
    exact (h.accounted K x hmem).lt_of_trim_eq_nil K hlate hempty
  exact ⟨hold burstQueue rfl, hold portQueue, hold synQueue⟩

/-- The bookkeeping of one evaluation, given what was recorded before it. -/
structure Bookkeeping (cfg : HeuristicConfig) (log : String → List PacketData)
    (d : HeuristicDetector) (p : PacketData) : Prop where
  /-- What is recorded: last-seen times and queues are those of the packets. -/
  recorded : ∀ s, (d.append p).Remembers s (heard s (log s) p)
  keys : (d.evaluatePacket cfg p).1.KeysAgree
  /-- A source that the idle phase drops has nothing recorded within a window. -/
  idle : sweepDue cfg.pruneIntervalSeconds d.lastPrunedAt p.timestamp = true →
    ∀ s ∈ (d.append p).trackedIps, s ∉ ((d.append p).dropIdle p.timestamp).trackedIps →
      ∀ q ∈ heard s (log s) p, OutOfWindows p.timestamp q
  bounded : sweepDue cfg.pruneIntervalSeconds d.lastPrunedAt p.timestamp = true →
    (d.evaluatePacket cfg p).1.trackedIps.length ≤ cfg.maxTrackedIps
  /-- A source that the overflow phase drops was seen no later than one that is kept. -/
  recency : sweepDue cfg.pruneIntervalSeconds d.lastPrunedAt p.timestamp = true →
    ∀ e ∈ ((d.append p).dropIdle p.timestamp).trackedIps,
      e ∉ (d.evaluatePacket cfg p).1.trackedIps →
      ∀ k ∈ (d.evaluatePacket cfg p).1.trackedIps, ∃ evicted kept,
        ((d.append p).dropIdle p.timestamp).lastSeen.get? e = some evicted ∧
          (d.evaluatePacket cfg p).1.lastSeen.get? k = some kept ∧ evicted ≤ kept

theorem lastSeenOf_eq {d : HeuristicDetector} {s : String} {t : Time}
    (h : d.lastSeen.get? s = some t) : d.lastSeenOf s = t := by
  rw [lastSeenOf, h, Option.getD_some]

theorem KeysAgree.lastSeen_of_mem {d : HeuristicDetector} (h : d.KeysAgree) {s : String}
    (hs : s ∈ d.trackedIps) : ∃ t, d.lastSeen.get? s = some t :=
  Dict.exists_get?_of_mem ((h.mem_lastSeen s).mpr hs)

/-- Whatever packets the detector has evaluated, the evaluation of the next one
keeps its books. -/
theorem detector_bookkeeping (cfg : HeuristicConfig) (packets : List PacketData)
    (p : PacketData) :
    Bookkeeping cfg (recorded cfg · packets) ((machine cfg).exec {} packets) p := by
  have hrecalled := recalled_exec cfg packets
  revert hrecalled
  generalize (machine cfg).exec {} packets = d
  intro hrecalled
  have hevaluated : (d.evaluatePacket cfg p).1 = d.observe cfg p :=
    congrArg Prod.fst (evaluatePacket_of_enabled hrecalled.enabled p)
  constructor
  · exact fun s => (hrecalled.remembers s).append p
  · rw [hevaluated]
    exact hrecalled.keys.observe cfg p
  · intro hdue s _ hdropped q hq
    exact ((hrecalled.remembers s).append p).outOfWindows (le_of_sweepDue hdue) hdropped hq
  · intro hdue
    rw [hevaluated, observe_of_due hdue, trackedIps_prunedAt]
    exact length_trackedIps_evictOverflow_le cfg _
  · intro hdue e he hevicted k hk
    rw [hevaluated, observe_of_due hdue, trackedIps_prunedAt] at hevicted hk
    rw [hevaluated, observe_of_due hdue, lastSeen_prunedAt]
    have hidle := (hrecalled.keys.append p).dropIdle p.timestamp
    obtain ⟨evicted, hevictedAt⟩ := hidle.lastSeen_of_mem he
    obtain ⟨kept, hkeptAt⟩ := hidle.lastSeen_of_mem (trackedIps_evictOverflow_subset cfg _ hk)
    have hle := evictOverflow_recency he hevicted hk
    rw [lastSeenOf_eq hevictedAt, lastSeenOf_eq hkeptAt] at hle
    exact ⟨evicted, kept, hevictedAt, (evictOverflow_of_mem hk).1.trans hkeptAt, hle⟩

end HeuristicDetector

end SmartIDS.ThreatDetection
