import SmartIDS.ThreatDetection.HeuristicWindows
set_option autoImplicit false

/-!
# ThreatDetection: which sources the detector tracks

Four maps are filled by the three `_append_*` methods and emptied by the sweep.
Whatever the time stamps, a source is in the last-seen map exactly when it is in
the packet map, and in no other map otherwise.  The idle phase drops a source only
when all that it has sent since the detector began to track it is older than the
windows, although the queues are trimmed at their heads alone; the overflow phase
drops those seen least recently.
-/

namespace SmartIDS.ThreatDetection

open SmartIDS.Foundation SmartIDS.PacketCapture

namespace HeuristicDetector

/-! ## The keys of the four maps -/

/-- The last-seen map has the keys of the packet map, the others have some of them. -/
structure KeysAgree (d : HeuristicDetector) : Prop where
  lastSeen : ∀ s, s ∈ d.lastSeen.keys ↔ s ∈ d.srcPacketTimes.keys
  dstPorts : ∀ s ∈ d.srcRecentDstPorts.keys, s ∈ d.srcPacketTimes.keys
  synOnly : ∀ s ∈ d.srcSynOnlyTimes.keys, s ∈ d.srcPacketTimes.keys

theorem keysAgree_init : KeysAgree {} where
  lastSeen _ := Iff.rfl
  dstPorts _ hs := hs
  synOnly _ hs := hs

theorem KeysAgree.mem_trackedIps {d : HeuristicDetector} (h : d.KeysAgree) (s : String) :
    s ∈ d.trackedIps ↔ s ∈ d.srcPacketTimes.keys := by
  rw [mem_trackedIps_iff]
  constructor
  · rintro (hs | hs | hs)
    · exact hs
    · exact h.dstPorts s hs
    · exact h.synOnly s hs
  · exact Or.inl

theorem KeysAgree.mem_lastSeen {d : HeuristicDetector} (h : d.KeysAgree) (s : String) :
    s ∈ d.lastSeen.keys ↔ s ∈ d.trackedIps := (h.lastSeen s).trans (h.mem_trackedIps s).symm

theorem mem_keys_touch {β : Type} {src s : String} {t : Time} (entry : Option β)
    {d : Dict String Time} (hsrc : src ∈ d.keys) :
    s ∈ (touch src t entry d).keys ↔ s ∈ d.keys := by
  cases entry with
  | none => rfl
  | some x =>
    rw [touch, Dict.mem_keys_set]
    exact ⟨fun hs => hs.elim (fun heq => heq ▸ hsrc) id, Or.inr⟩

/-- The packet's source is entered into the packet and the last-seen map first. -/
theorem mem_keys_append (d : HeuristicDetector) (p : PacketData) (s : String) :
    (s ∈ (d.append p).srcPacketTimes.keys ↔ s = p.srcIp ∨ s ∈ d.srcPacketTimes.keys) ∧
      (s ∈ (d.append p).lastSeen.keys ↔ s = p.srcIp ∨ s ∈ d.lastSeen.keys) := by
  have hfirst : p.srcIp ∈ (touch p.srcIp p.timestamp (timeEntry p) d.lastSeen).keys :=
    (Dict.mem_keys_set _ _ _ _).mpr (Or.inl rfl)
  have hsecond : p.srcIp ∈ (touch p.srcIp p.timestamp (dstPortEntry p)
      (touch p.srcIp p.timestamp (timeEntry p) d.lastSeen)).keys :=
    (mem_keys_touch (dstPortEntry p) hfirst).mpr hfirst
  refine ⟨Dict.mem_keys_set _ _ _ _, ?_⟩
  have hlast : s ∈ (d.append p).lastSeen.keys ↔
      s ∈ (touch p.srcIp p.timestamp (timeEntry p) d.lastSeen).keys :=
    (mem_keys_touch (synOnlyEntry p) hsecond).trans (mem_keys_touch (dstPortEntry p) hfirst)
  exact hlast.trans (Dict.mem_keys_set _ _ _ _)

theorem KeysAgree.append {d : HeuristicDetector} (h : d.KeysAgree) (p : PacketData) :
    (d.append p).KeysAgree where
  lastSeen s := by
    obtain ⟨htimes, hlast⟩ := mem_keys_append d p s
    rw [htimes, hlast, h.lastSeen]
  dstPorts s hs := by
    rw [(mem_keys_append d p s).1]
    exact (mem_keys_appendEntry hs).imp_right (h.dstPorts s)
  synOnly s hs := by
    rw [(mem_keys_append d p s).1]
    exact (mem_keys_appendEntry hs).imp_right (h.synOnly s)

theorem KeysAgree.forget {d : HeuristicDetector} (h : d.KeysAgree) (ip : String) :
    (d.forget ip).KeysAgree where
  lastSeen s := by
    rw [HeuristicDetector.forget, Dict.mem_keys_erase, Dict.mem_keys_erase, h.lastSeen]
  dstPorts s hs := by
    obtain ⟨hs, hne⟩ := (Dict.mem_keys_erase _ _ _).mp hs
    exact (Dict.mem_keys_erase _ _ _).mpr ⟨h.dstPorts s hs, hne⟩
  synOnly s hs := by
    obtain ⟨hs, hne⟩ := (Dict.mem_keys_erase _ _ _).mp hs
    exact (Dict.mem_keys_erase _ _ _).mpr ⟨h.synOnly s hs, hne⟩

theorem KeysAgree.trimIp {d : HeuristicDetector} (h : d.KeysAgree) (now : Time) (ip : String) :
    (d.trimIp now ip).KeysAgree where
  lastSeen s := (h.lastSeen s).trans (mem_keys_trimQueue _ _ _ _ _).symm
  dstPorts s hs :=
    (mem_keys_trimQueue _ _ _ _ _).mpr (h.dstPorts s ((mem_keys_trimQueue _ _ _ _ _).mp hs))
  synOnly s hs :=
    (mem_keys_trimQueue _ _ _ _ _).mpr (h.synOnly s ((mem_keys_trimQueue _ _ _ _ _).mp hs))

theorem KeysAgree.sweepIp {d : HeuristicDetector} (h : d.KeysAgree) (now : Time) (ip : String) :
    (d.sweepIp now ip).KeysAgree := by
  unfold HeuristicDetector.sweepIp
  simp only
  split
  · exact (h.trimIp now ip).forget ip
  · exact h.trimIp now ip

theorem KeysAgree.foldl {step : HeuristicDetector → String → HeuristicDetector}
    (hstep : ∀ {d : HeuristicDetector}, d.KeysAgree → ∀ ip, (step d ip).KeysAgree)
    {d : HeuristicDetector} (h : d.KeysAgree) (ips : List String) :
    (ips.foldl step d).KeysAgree := by
  induction ips generalizing d with
  | nil => exact h
  | cons ip ips ih => exact ih (hstep h ip)

/-! ## The idle phase -/

/-- The detector after the first phase of the sweep. -/
def dropIdle (now : Time) (d : HeuristicDetector) : HeuristicDetector :=
  d.trackedIps.foldl (sweepIp now) d

theorem pruneTrackedIps_eq (cfg : HeuristicConfig) (now : Time) (d : HeuristicDetector) :
    d.pruneTrackedIps cfg now = (d.dropIdle now).evictOverflow cfg := rfl

theorem KeysAgree.dropIdle {d : HeuristicDetector} (h : d.KeysAgree) (now : Time) :
    (d.dropIdle now).KeysAgree := KeysAgree.foldl (fun h ip => h.sweepIp now ip) h d.trackedIps

theorem queue_dropIdle {β : Type} (K : QueueKind β) (now : Time) (d : HeuristicDetector)
    (s : String) :
    (K.proj (d.dropIdle now)).queue s =
      Window.trim K.stamp (now - K.window) ((K.proj d).queue s) := by
  rw [dropIdle, K.queue_foldl_sweepIp now d.nodup_trackedIps]
  split_ifs with hs
  · rfl
  · rw [K.queue_of_notMem hs, Window.trim_nil]

/-- The idle phase keeps the last-seen time of every source it keeps. -/
theorem lastSeen_dropIdle {now : Time} {d : HeuristicDetector} {s : String}
    (hs : s ∈ (d.dropIdle now).trackedIps) :
    (d.dropIdle now).lastSeen.get? s = d.lastSeen.get? s := by
  unfold dropIdle at hs ⊢
  generalize d.trackedIps = ips at hs ⊢
  induction ips generalizing d with
  | nil => rfl
  | cons ip ips ih =>
    rw [List.foldl_cons, ih hs]
    have hmem := trackedIps_foldl_sweepIp_subset now ips _ hs
    unfold sweepIp at hmem ⊢
    simp only at hmem ⊢
    split_ifs at hmem ⊢
    · -- the source that is dropped is another one
      rw [mem_trackedIps_iff] at hmem
      simp only [forget, Dict.mem_keys_erase] at hmem
      have hne : s ≠ ip := by
        rcases hmem with hmem | hmem | hmem
        · exact hmem.2
        · exact hmem.2
        · exact hmem.2
      exact Dict.get?_erase_of_ne _ hne
    · rfl

/-! ## The overflow phase -/

theorem mem_trackedIps_foldl_forget (ips : List String) (d : HeuristicDetector) (s : String) :
    s ∈ (ips.foldl forget d).trackedIps ↔ s ∈ d.trackedIps ∧ s ∉ ips := by
  induction ips generalizing d with
  | nil => simp
  | cons ip ips ih =>
    rw [List.foldl_cons, ih, List.mem_cons, mem_trackedIps_iff, mem_trackedIps_iff]
    simp only [forget, Dict.mem_keys_erase]
    tauto

theorem lastSeen_foldl_forget (ips : List String) (d : HeuristicDetector) :
    (ips.foldl forget d).lastSeen = ips.foldl Dict.erase d.lastSeen := by
  induction ips generalizing d with
  | nil => rfl
  | cons ip ips ih => exact ih (d.forget ip)

theorem queue_foldl_forget {β : Type} (K : QueueKind β) (ips : List String)
    (d : HeuristicDetector) {s : String} (hs : s ∉ ips) :
    (K.proj (ips.foldl forget d)).queue s = (K.proj d).queue s := by
  induction ips generalizing d with
  | nil => rfl
  | cons ip ips ih =>
    rw [List.mem_cons, not_or] at hs
    rw [List.foldl_cons, ih _ hs.2, K.proj_forget, Dict.queue_erase, if_neg hs.1]

/-- The tracked sources, seen least recently first.  Sources seen at the same time
stand in any order. -/
structure ByRecency (d : HeuristicDetector) (ips : List String) : Prop where
  perm : ips.Perm d.trackedIps
  sorted : ips.Pairwise fun a b => d.lastSeenOf a ≤ d.lastSeenOf b

theorem byRecency_insertionSort (d : HeuristicDetector) :
    d.ByRecency (d.trackedIps.insertionSort fun a b => d.lastSeenOf a ≤ d.lastSeenOf b) where
  perm := List.perm_insertionSort _ _
  sorted := by
    have : Std.Total fun a b => d.lastSeenOf a ≤ d.lastSeenOf b :=
      ⟨fun a b => le_total (d.lastSeenOf a) (d.lastSeenOf b)⟩
    have : IsTrans String fun a b => d.lastSeenOf a ≤ d.lastSeenOf b :=
      ⟨fun _ _ _ hab hbc => le_trans hab hbc⟩
    exact List.pairwise_insertionSort _ _

/-- Who is left when the first `n` sources are dropped. -/
theorem ByRecency.mem_drop {d : HeuristicDetector} {ips : List String} (h : d.ByRecency ips)
    (n : ℕ) (s : String) :
    s ∈ ((ips.take n).foldl forget d).trackedIps ↔ s ∈ ips.drop n := by
  have hnodup : (ips.take n ++ ips.drop n).Nodup := by
    rw [List.take_append_drop]
    exact h.perm.nodup_iff.mpr d.nodup_trackedIps
  rw [mem_trackedIps_foldl_forget, ← h.perm.mem_iff]
  constructor
  · rintro ⟨hmem, hnot⟩
    rw [← List.take_append_drop n ips] at hmem
    exact (List.mem_append.mp hmem).resolve_left hnot
  · intro hdrop
    exact ⟨List.mem_of_mem_drop hdrop, fun htake => List.disjoint_of_nodup_append hnodup htake hdrop⟩

/-- The sources dropped were seen no later than those left. -/
theorem ByRecency.lastSeenOf_le {d : HeuristicDetector} {ips : List String} (h : d.ByRecency ips)
    {n : ℕ} {e k : String} (he : e ∈ ips.take n) (hk : k ∈ ips.drop n) :
    d.lastSeenOf e ≤ d.lastSeenOf k := by
  have hsorted := h.sorted
  rw [← List.take_append_drop n ips] at hsorted
  exact (List.pairwise_append.mp hsorted).2.2 e he k hk

/-- What the overflow phase does: nothing, or it drops the first sources by recency
and leaves as many as there may be. -/
theorem evictOverflow_cases (cfg : HeuristicConfig) (d : HeuristicDetector) :
    ∃ ips n, d.ByRecency ips ∧ d.evictOverflow cfg = (ips.take n).foldl forget d ∧
      (ips.drop n).length ≤ cfg.maxTrackedIps := by
  have hrecency := d.byRecency_insertionSort
  refine ⟨_, d.trackedIps.length - cfg.maxTrackedIps, hrecency, ?_, ?_⟩
  · unfold evictOverflow
    split_ifs with hroom
    · rw [Nat.sub_eq_zero_of_le hroom, List.take_zero]
      rfl
    · rfl
  · rw [List.length_drop, hrecency.perm.length_eq]
    omega

theorem KeysAgree.evictOverflow {d : HeuristicDetector} (h : d.KeysAgree)
    (cfg : HeuristicConfig) : (d.evictOverflow cfg).KeysAgree := by
  obtain ⟨ips, n, -, heq, -⟩ := evictOverflow_cases cfg d
  rw [heq]
  exact KeysAgree.foldl (fun h ip => h.forget ip) h _

theorem trackedIps_evictOverflow_subset (cfg : HeuristicConfig) (d : HeuristicDetector) :
    (d.evictOverflow cfg).trackedIps ⊆ d.trackedIps := by
  obtain ⟨ips, n, -, heq, -⟩ := evictOverflow_cases cfg d
  rw [heq]
  exact fun s hs => ((mem_trackedIps_foldl_forget _ _ _).mp hs).1

theorem length_trackedIps_evictOverflow_le (cfg : HeuristicConfig) (d : HeuristicDetector) :
    (d.evictOverflow cfg).trackedIps.length ≤ cfg.maxTrackedIps := by
  obtain ⟨ips, n, hrecency, heq, hlength⟩ := evictOverflow_cases cfg d
  rw [heq]
  have hsub : ((ips.take n).foldl forget d).trackedIps ⊆ ips.drop n :=
    fun s hs => (hrecency.mem_drop n s).mp hs
  exact le_trans ((nodup_trackedIps _).subperm hsub).length_le hlength

/-- A source that is evicted was seen no later than one that is kept, whose
last-seen time stays. -/
theorem evictOverflow_recency {cfg : HeuristicConfig} {d : HeuristicDetector} {e k : String}
    (he : e ∈ d.trackedIps) (hevicted : e ∉ (d.evictOverflow cfg).trackedIps)
    (hk : k ∈ (d.evictOverflow cfg).trackedIps) :
    d.lastSeenOf e ≤ d.lastSeenOf k := by
  obtain ⟨ips, n, hrecency, heq, -⟩ := evictOverflow_cases cfg d
  rw [heq, hrecency.mem_drop] at hevicted hk
  rw [← hrecency.perm.mem_iff, ← List.take_append_drop n ips, List.mem_append] at he
  exact hrecency.lastSeenOf_le (he.resolve_right hevicted) hk

/-- The overflow phase leaves what it keeps of a source as it was. -/
theorem evictOverflow_of_mem {cfg : HeuristicConfig} {d : HeuristicDetector} {s : String}
    (hs : s ∈ (d.evictOverflow cfg).trackedIps) :
    (d.evictOverflow cfg).lastSeen.get? s = d.lastSeen.get? s ∧
      ∀ {β : Type} (K : QueueKind β),
        (K.proj (d.evictOverflow cfg)).queue s = (K.proj d).queue s := by
  obtain ⟨ips, n, -, heq, -⟩ := evictOverflow_cases cfg d
  rw [heq] at hs ⊢
  have hkept := ((mem_trackedIps_foldl_forget _ _ _).mp hs).2
  refine ⟨?_, fun K => queue_foldl_forget K _ d hkept⟩
  rw [lastSeen_foldl_forget, Dict.get?_foldl_erase, if_neg hkept]

/-! ## One packet -/

/-- `self._last_pruned_at = timestamp`. -/
def prunedAt (t : Time) (d : HeuristicDetector) : HeuristicDetector :=
  { d with lastPrunedAt := some t }

@[simp] theorem lastPrunedAt_prunedAt (t : Time) (d : HeuristicDetector) :
    (d.prunedAt t).lastPrunedAt = some t := rfl

@[simp] theorem enabled_prunedAt (t : Time) (d : HeuristicDetector) :
    (d.prunedAt t).enabled = d.enabled := rfl

@[simp] theorem lastSeen_prunedAt (t : Time) (d : HeuristicDetector) :
    (d.prunedAt t).lastSeen = d.lastSeen := rfl

@[simp] theorem trackedIps_prunedAt (t : Time) (d : HeuristicDetector) :
    (d.prunedAt t).trackedIps = d.trackedIps := rfl

theorem queue_prunedAt {β : Type} (K : QueueKind β) (t : Time) (d : HeuristicDetector)
    (s : String) : (K.proj (d.prunedAt t)).queue s = (K.proj d).queue s := by
  rw [prunedAt, K.proj_lastPrunedAt]

theorem KeysAgree.prunedAt {d : HeuristicDetector} (h : d.KeysAgree) (t : Time) :
    (d.prunedAt t).KeysAgree := ⟨h.lastSeen, h.dstPorts, h.synOnly⟩

/-- A packet that triggers a sweep. -/
theorem observe_of_due {cfg : HeuristicConfig} {d : HeuristicDetector} {p : PacketData}
    (hdue : sweepDue cfg.pruneIntervalSeconds d.lastPrunedAt p.timestamp = true) :
    d.observe cfg p =
      (((d.append p).dropIdle p.timestamp).evictOverflow cfg).prunedAt p.timestamp := by
  rw [observe_eq, if_pos hdue, pruneTrackedIps_eq]
  rfl

theorem observe_of_not_due {cfg : HeuristicConfig} {d : HeuristicDetector} {p : PacketData}
    (hdue : ¬ sweepDue cfg.pruneIntervalSeconds d.lastPrunedAt p.timestamp = true) :
    d.observe cfg p = d.append p := by
  rw [observe_eq, if_neg hdue]

theorem KeysAgree.observe {d : HeuristicDetector} (h : d.KeysAgree) (cfg : HeuristicConfig)
    (p : PacketData) : (d.observe cfg p).KeysAgree := by
  have happend := h.append p
  by_cases hdue : sweepDue cfg.pruneIntervalSeconds d.lastPrunedAt p.timestamp = true
  · rw [observe_of_due hdue]
    exact ((happend.dropIdle p.timestamp).evictOverflow cfg).prunedAt _
  · rw [observe_of_not_due hdue]
    exact happend

theorem enabled_foldl_forget (ips : List String) (d : HeuristicDetector) :
    (ips.foldl forget d).enabled = d.enabled := by
  induction ips generalizing d with
  | nil => rfl
  | cons ip ips ih => exact ih (d.forget ip)

theorem enabled_evictOverflow (cfg : HeuristicConfig) (d : HeuristicDetector) :
    (d.evictOverflow cfg).enabled = d.enabled := by
  obtain ⟨ips, n, -, heq, -⟩ := evictOverflow_cases cfg d
  rw [heq, enabled_foldl_forget]

theorem enabled_observe_eq (cfg : HeuristicConfig) (d : HeuristicDetector) (p : PacketData) :
    (d.observe cfg p).enabled = d.enabled := by
  by_cases hdue : sweepDue cfg.pruneIntervalSeconds d.lastPrunedAt p.timestamp = true
  · rw [observe_of_due hdue, enabled_prunedAt, enabled_evictOverflow, dropIdle,
      enabled_foldl_sweepIp]
    rfl
  · rw [observe_of_not_due hdue]
    rfl

end HeuristicDetector

end SmartIDS.ThreatDetection
