import SmartIDS.ThreatDetection.Heuristic
import Mathlib.Data.List.Perm.Subperm
import Mathlib.Data.List.ReduceOption
import Mathlib.Tactic.Linarith
import Mathlib.Tactic.NormNum
set_option autoImplicit false

/-!
# ThreatDetection: what the detector's queues hold

The detector is compared with a reference that keeps the whole history and
counts, for a packet at time `t`, the observations of its source in
`[t - window, t]`.  Each queue is trimmed only when an observation of its own
kind arrives from the source, or by a sweep.  On chronological input the queue
therefore holds the observations since `horizon - window`, where the horizon is
the last such moment; the reference uses `t` in its place.  The burst queue is
trimmed by every packet, so the two agree.  The port and SYN queues are not, and
the decisions agree exactly while no leftover lifts a count over its threshold.
-/

namespace SmartIDS.ThreatDetection

open SmartIDS.Foundation SmartIDS.PacketCapture

/-! ## One queue of the detector

The three queues differ in what they record and in their window, and in nothing
else that the argument uses. -/

/-- A queue of the detector, with the facts every argument below rests on. -/
structure QueueKind (β : Type) where
  /-- The map that holds the queues. -/
  proj : HeuristicDetector → Dict String (List β)
  stamp : β → Time
  window : Time
  window_nonneg : 0 ≤ window
  /-- What a packet adds to the queue of its source. -/
  entry : PacketData → Option β
  stamp_entry : ∀ p x, entry p = some x → stamp x = p.timestamp
  proj_append : ∀ d p, proj (((d.appendTime p).appendDstPort p).appendSynOnly p) =
    appendEntry stamp window p.srcIp p.timestamp (entry p) (proj d)
  proj_lastPrunedAt : ∀ d t, proj { d with lastPrunedAt := t } = proj d
  proj_trimIp : ∀ now d ip, proj (d.trimIp now ip) =
    HeuristicDetector.trimQueue stamp (now - window) ip (proj d)
  proj_forget : ∀ d ip, proj (d.forget ip) = (proj d).erase ip
  isEmpty_of_isEmptyIp : ∀ d ip, d.isEmptyIp ip = true → (proj d).queue ip = []
  mem_trackedIps : ∀ d ip, ip ∈ (proj d).keys → ip ∈ d.trackedIps

theorem HeuristicDetector.isEmptyIp_iff {d : HeuristicDetector} {ip : String} :
    d.isEmptyIp ip = true ↔ (d.srcPacketTimes.queue ip = [] ∧ d.srcRecentDstPorts.queue ip = []) ∧
      d.srcSynOnlyTimes.queue ip = [] := by
  simp only [HeuristicDetector.isEmptyIp, Bool.and_eq_true, List.isEmpty_iff]

/-- All packets of a source. -/
def burstQueue : QueueKind Time where
  proj := HeuristicDetector.srcPacketTimes
  stamp := id
  window := burstWindowSeconds
  window_nonneg := by unfold burstWindowSeconds; norm_num
  entry := timeEntry
  stamp_entry p x h := by simpa [timeEntry, eq_comm] using h
  proj_append _ _ := rfl
  proj_lastPrunedAt _ _ := rfl
  proj_trimIp _ _ _ := rfl
  proj_forget _ _ := rfl
  isEmpty_of_isEmptyIp d ip h := (HeuristicDetector.isEmptyIp_iff.mp h).1.1
  mem_trackedIps d ip h := by simp [HeuristicDetector.trackedIps, h]

/-- Packets with a destination port. -/
def portQueue : QueueKind (Time × ℕ) where
  proj := HeuristicDetector.srcRecentDstPorts
  stamp := Prod.fst
  window := portSweepWindowSeconds
  window_nonneg := by unfold portSweepWindowSeconds; norm_num
  entry := dstPortEntry
  stamp_entry p x h := by
    simp only [dstPortEntry, Option.map_eq_some_iff] at h
    obtain ⟨port, -, rfl⟩ := h
    rfl
  proj_append _ _ := rfl
  proj_lastPrunedAt _ _ := rfl
  proj_trimIp _ _ _ := rfl
  proj_forget _ _ := rfl
  isEmpty_of_isEmptyIp d ip h := (HeuristicDetector.isEmptyIp_iff.mp h).1.2
  mem_trackedIps d ip h := by simp [HeuristicDetector.trackedIps, h]

/-- SYN packets without ACK. -/
def synQueue : QueueKind Time where
  proj := HeuristicDetector.srcSynOnlyTimes
  stamp := id
  window := synWindowSeconds
  window_nonneg := by unfold synWindowSeconds; norm_num
  entry := synOnlyEntry
  stamp_entry p x h := by
    simp only [synOnlyEntry] at h
    split at h
    · simpa [eq_comm] using h
    · simp at h
  proj_append _ _ := rfl
  proj_lastPrunedAt _ _ := rfl
  proj_trimIp _ _ _ := rfl
  proj_forget _ _ := rfl
  isEmpty_of_isEmptyIp d ip h := (HeuristicDetector.isEmptyIp_iff.mp h).2
  mem_trackedIps d ip h := by simp [HeuristicDetector.trackedIps, h]

theorem queue_appendEntry {β : Type} (stamp : β → Time) (window t : Time) (src s : String)
    (entry : Option β) (d : Dict String (List β)) :
    (appendEntry stamp window src t entry d).queue s =
      match (if s = src then entry else none) with
      | none => d.queue s
      | some x => Window.trim stamp (t - window) (d.queue s ++ [x]) := by
  cases entry with
  | none => simp [appendEntry]
  | some x =>
    simp only [appendEntry]
    rw [Dict.queue_set]
    rcases eq_or_ne s src with rfl | hs
    · simp
    · simp [hs]

theorem queue_trimQueue {β : Type} (stamp : β → Time) (c : Time) (ip s : String)
    (d : Dict String (List β)) :
    (HeuristicDetector.trimQueue stamp c ip d).queue s =
      if s = ip then Window.trim stamp c (d.queue s) else d.queue s := by
  unfold HeuristicDetector.trimQueue
  split
  · rename_i hnone
    rcases eq_or_ne s ip with rfl | hs
    · simp [Dict.queue_of_get?_none hnone]
    · simp [hs]
  · rename_i q hsome
    rw [Dict.queue_set]
    rcases eq_or_ne s ip with rfl | hs
    · simp [Dict.queue_of_get?_some hsome]
    · simp [hs]

theorem mem_keys_trimQueue {β : Type} (stamp : β → Time) (c : Time) (ip s : String)
    (d : Dict String (List β)) :
    s ∈ (HeuristicDetector.trimQueue stamp c ip d).keys ↔ s ∈ d.keys := by
  unfold HeuristicDetector.trimQueue
  split
  · rfl
  · rename_i q hsome
    rw [Dict.mem_keys_set]
    constructor
    · rintro (rfl | hs)
      · exact Dict.mem_keys_of_get? hsome
      · exact hs
    · exact Or.inr

/-! ## The sweep, without overflow -/

namespace HeuristicDetector

theorem mem_trackedIps_iff (d : HeuristicDetector) (s : String) :
    s ∈ d.trackedIps ↔
      s ∈ d.srcPacketTimes.keys ∨ s ∈ d.srcRecentDstPorts.keys ∨ s ∈ d.srcSynOnlyTimes.keys := by
  simp [trackedIps]

theorem nodup_trackedIps (d : HeuristicDetector) : d.trackedIps.Nodup := List.nodup_dedup _

theorem mem_trackedIps_trimIp (now : Time) (d : HeuristicDetector) (ip s : String) :
    s ∈ (d.trimIp now ip).trackedIps ↔ s ∈ d.trackedIps := by
  simp only [mem_trackedIps_iff, trimIp, mem_keys_trimQueue]

theorem trackedIps_sweepIp_subset (now : Time) (d : HeuristicDetector) (ip : String) :
    (d.sweepIp now ip).trackedIps ⊆ d.trackedIps := by
  intro s hs
  rw [← mem_trackedIps_trimIp now d ip s]
  simp only [sweepIp] at hs
  split at hs
  · rw [mem_trackedIps_iff] at hs ⊢
    simp only [forget, Dict.mem_keys_erase] at hs
    rcases hs with hs | hs | hs
    · exact Or.inl hs.1
    · exact Or.inr (Or.inl hs.1)
    · exact Or.inr (Or.inr hs.1)
  · exact hs

theorem trackedIps_foldl_sweepIp_subset (now : Time) (ips : List String)
    (d : HeuristicDetector) : (ips.foldl (sweepIp now) d).trackedIps ⊆ d.trackedIps := by
  induction ips generalizing d with
  | nil => exact List.Subset.refl _
  | cons ip ips ih =>
    exact List.Subset.trans (ih (d.sweepIp now ip)) (trackedIps_sweepIp_subset now d ip)

@[simp] theorem enabled_foldl_sweepIp (now : Time) (ips : List String)
    (d : HeuristicDetector) :
    (ips.foldl (sweepIp now) d).enabled = d.enabled := by
  induction ips generalizing d with
  | nil => rfl
  | cons ip ips ih =>
    rw [List.foldl_cons, ih]
    unfold sweepIp
    simp only
    split <;> rfl

theorem evictOverflow_of_le {cfg : HeuristicConfig} {d : HeuristicDetector}
    (h : d.trackedIps.length ≤ cfg.maxTrackedIps) : d.evictOverflow cfg = d := by
  simp [evictOverflow, h]

end HeuristicDetector

namespace QueueKind

variable {β : Type} (K : QueueKind β)

theorem queue_of_notMem {d : HeuristicDetector} {s : String} (h : s ∉ d.trackedIps) :
    (K.proj d).queue s = [] :=
  Dict.queue_of_notMem fun hs => h (K.mem_trackedIps d s hs)

/-- One turn of the sweep's loop trims one source and leaves the others alone.
A source that is dropped had nothing left in this queue. -/
theorem queue_sweepIp (now : Time) (d : HeuristicDetector) (ip s : String) :
    (K.proj (d.sweepIp now ip)).queue s =
      if s = ip then Window.trim K.stamp (now - K.window) ((K.proj d).queue s)
      else (K.proj d).queue s := by
  unfold HeuristicDetector.sweepIp
  simp only
  split
  · rename_i hempty
    have hnil := K.isEmpty_of_isEmptyIp _ _ hempty
    rw [K.proj_trimIp, queue_trimQueue] at hnil
    rw [K.proj_forget, Dict.queue_erase, K.proj_trimIp, queue_trimQueue]
    rcases eq_or_ne s ip with rfl | hs
    · simpa using hnil.symm
    · simp [hs]
  · rw [K.proj_trimIp, queue_trimQueue]

theorem queue_foldl_sweepIp (now : Time) {ips : List String} (hnodup : ips.Nodup)
    (d : HeuristicDetector) (s : String) :
    (K.proj (ips.foldl (HeuristicDetector.sweepIp now) d)).queue s =
      if s ∈ ips then Window.trim K.stamp (now - K.window) ((K.proj d).queue s)
      else (K.proj d).queue s := by
  induction ips generalizing d with
  | nil => simp
  | cons ip ips ih =>
    obtain ⟨hip, hips⟩ := List.nodup_cons.mp hnodup
    rw [List.foldl_cons, ih hips, K.queue_sweepIp]
    rcases eq_or_ne s ip with rfl | hs
    · simp [hip]
    · simp [hs]

/-- A sweep that evicts nobody trims this queue for every source. -/
theorem queue_pruneTrackedIps {cfg : HeuristicConfig} (now : Time) {d : HeuristicDetector}
    (hroom : d.trackedIps.length ≤ cfg.maxTrackedIps) (s : String) :
    (K.proj (d.pruneTrackedIps cfg now)).queue s =
      Window.trim K.stamp (now - K.window) ((K.proj d).queue s) := by
  have hsub := HeuristicDetector.trackedIps_foldl_sweepIp_subset now d.trackedIps d
  have hlength : (d.trackedIps.foldl (HeuristicDetector.sweepIp now) d).trackedIps.length ≤
      cfg.maxTrackedIps :=
    le_trans ((HeuristicDetector.nodup_trackedIps _).subperm hsub).length_le hroom
  rw [HeuristicDetector.pruneTrackedIps, HeuristicDetector.evictOverflow_of_le hlength,
    K.queue_foldl_sweepIp now d.nodup_trackedIps]
  split
  · rfl
  · rename_i hs
    simp [K.queue_of_notMem hs]

end QueueKind

/-! ## One observed packet -/

namespace HeuristicDetector

/-- The state after the three `_append_*` calls. -/
def append (d : HeuristicDetector) (p : PacketData) : HeuristicDetector :=
  ((d.appendTime p).appendDstPort p).appendSynOnly p

theorem mem_keys_appendEntry {β : Type} {stamp : β → Time} {window t : Time} {src s : String}
    {entry : Option β} {d : Dict String (List β)}
    (h : s ∈ (appendEntry stamp window src t entry d).keys) : s = src ∨ s ∈ d.keys := by
  cases entry with
  | none => exact Or.inr h
  | some x => exact (Dict.mem_keys_set _ _ _ _).mp h

theorem mem_trackedIps_append {d : HeuristicDetector} {p : PacketData} {s : String}
    (h : s ∈ (d.append p).trackedIps) : s = p.srcIp ∨ s ∈ d.trackedIps := by
  rw [mem_trackedIps_iff] at h ⊢
  rcases h with h | h | h
  · exact (mem_keys_appendEntry h).imp_right Or.inl
  · exact (mem_keys_appendEntry h).imp_right (Or.inr ∘ Or.inl)
  · exact (mem_keys_appendEntry h).imp_right (Or.inr ∘ Or.inr)

/-- There is room for the packet's source, so that a sweep evicts nobody. -/
def HasRoom (cfg : HeuristicConfig) (d : HeuristicDetector) (p : PacketData) : Prop :=
  (d.append p).trackedIps.length ≤ cfg.maxTrackedIps

theorem observe_eq (cfg : HeuristicConfig) (d : HeuristicDetector) (p : PacketData) :
    d.observe cfg p =
      if sweepDue cfg.pruneIntervalSeconds d.lastPrunedAt p.timestamp then
        { (d.append p).pruneTrackedIps cfg p.timestamp with lastPrunedAt := some p.timestamp }
      else d.append p := rfl

theorem pruneTrackedIps_of_hasRoom {cfg : HeuristicConfig} {d : HeuristicDetector}
    {p : PacketData} (hroom : HasRoom cfg d p) :
    (d.append p).pruneTrackedIps cfg p.timestamp =
      (d.append p).trackedIps.foldl (sweepIp p.timestamp) (d.append p) := by
  apply evictOverflow_of_le
  have hsub := trackedIps_foldl_sweepIp_subset p.timestamp (d.append p).trackedIps (d.append p)
  exact le_trans ((nodup_trackedIps _).subperm hsub).length_le hroom

theorem trackedIps_observe {cfg : HeuristicConfig} {d : HeuristicDetector} {p : PacketData}
    (hroom : HasRoom cfg d p) {s : String} (h : s ∈ (d.observe cfg p).trackedIps) :
    s = p.srcIp ∨ s ∈ d.trackedIps := by
  apply mem_trackedIps_append
  rw [observe_eq] at h
  split at h
  · rw [pruneTrackedIps_of_hasRoom hroom] at h
    exact trackedIps_foldl_sweepIp_subset _ _ _ h
  · exact h

theorem enabled_observe {cfg : HeuristicConfig} {d : HeuristicDetector} {p : PacketData}
    (hroom : HasRoom cfg d p) : (d.observe cfg p).enabled = d.enabled := by
  rw [observe_eq]
  split
  · rw [pruneTrackedIps_of_hasRoom hroom]
    exact enabled_foldl_sweepIp _ _ _
  · rfl

/-- The last sweep moves with the time stamps alone. -/
theorem lastPrunedAt_observe {cfg : HeuristicConfig} {d : HeuristicDetector} {p : PacketData} :
    (d.observe cfg p).lastPrunedAt =
      if sweepDue cfg.pruneIntervalSeconds d.lastPrunedAt p.timestamp then some p.timestamp
      else d.lastPrunedAt := by
  rw [observe_eq]
  split <;> rfl

end HeuristicDetector

namespace QueueKind

variable {β : Type} (K : QueueKind β)

/-- What one packet at time `t` does to one queue: `own` is the observation it
adds to this queue, `due` tells whether it triggers a sweep. -/
def nextQueue (own : Option β) (due : Bool) (t : Time) (q : List β) : List β :=
  let q := match own with
    | none => q
    | some x => Window.trim K.stamp (t - K.window) (q ++ [x])
  if due then Window.trim K.stamp (t - K.window) q else q

/-- What a packet adds to the queue of the source `s`. -/
def ownEntry (s : String) (p : PacketData) : Option β :=
  if s = p.srcIp then K.entry p else none

/-- The queue of a source after the three `_append_*` calls. -/
theorem queue_append (d : HeuristicDetector) (p : PacketData) (s : String) :
    (K.proj (d.append p)).queue s =
      match K.ownEntry s p with
      | none => (K.proj d).queue s
      | some x =>
        Window.trim K.stamp (p.timestamp - K.window) ((K.proj d).queue s ++ [x]) := by
  rw [HeuristicDetector.append, K.proj_append, queue_appendEntry]
  rfl

/-- The queue of a source after a packet depends on that queue, on the packet when
it is the source's own, and on whether a sweep is due. -/
theorem queue_observe {cfg : HeuristicConfig} {d : HeuristicDetector} {p : PacketData}
    (hroom : HeuristicDetector.HasRoom cfg d p) (s : String) :
    (K.proj (d.observe cfg p)).queue s =
      K.nextQueue (K.ownEntry s p)
        (sweepDue cfg.pruneIntervalSeconds d.lastPrunedAt p.timestamp) p.timestamp
        ((K.proj d).queue s) := by
  have happend := K.queue_append d p s
  rw [HeuristicDetector.observe_eq]
  unfold nextQueue
  split
  · rename_i hdue
    rw [K.proj_lastPrunedAt, K.queue_pruneTrackedIps _ hroom, happend]
  · exact happend

end QueueKind

/-! ## Queues as functions of the history -/

/-- Packets in order of their time stamps. -/
abbrev InOrder (packets : List PacketData) : Prop :=
  Window.Chronological PacketData.timestamp packets

instance (packets : List PacketData) : Decidable (InOrder packets) :=
  inferInstanceAs (Decidable (packets.Pairwise fun x y => x.timestamp ≤ y.timestamp))

/-- The distinct sources of a list of packets. -/
def sources (packets : List PacketData) : List String := (packets.map (·.srcIp)).dedup

/-- When the last sweep ran, as a function of the packets seen. -/
def lastSweep (interval : Time) (h : List PacketData) : Option Time :=
  h.foldl (fun last p => if sweepDue interval last p.timestamp then some p.timestamp else last) none

theorem lastSweep_concat (interval : Time) (h : List PacketData) (p : PacketData) :
    lastSweep interval (h ++ [p]) =
      if sweepDue interval (lastSweep interval h) p.timestamp then some p.timestamp
      else lastSweep interval h := by
  rw [lastSweep, List.foldl_append]
  rfl

namespace QueueKind

variable {β : Type} (K : QueueKind β)

/-- The observations of a source, oldest first. -/
def series (h : List PacketData) (s : String) : List β := h.filterMap (K.ownEntry s)

/-- The observations of a source with a time stamp in `[t - window, t]`. -/
def inWindow (h : List PacketData) (s : String) (t : Time) : List β :=
  (K.series h s).filter fun x => t - K.window ≤ K.stamp x ∧ K.stamp x ≤ t

/-- The packet `p`, arriving after `h`, trims the queue of `s`. -/
def trims (interval : Time) (s : String) (h : List PacketData) (p : PacketData) : Bool :=
  sweepDue interval (lastSweep interval h) p.timestamp || (K.ownEntry s p).isSome

/-- The time of the last packet that trimmed the queue of `s`. -/
def horizon (interval : Time) (s : String) (h : List PacketData) : Option Time :=
  (Machine.alongPrefixes (fun pre p => if K.trims interval s pre p then some p.timestamp else none)
    [] h).reduceOption.getLast?

/-- The observations of a source since its queue was last trimmed. -/
def retained (interval : Time) (h : List PacketData) (s : String) : List β :=
  match K.horizon interval s h with
  | none => []
  | some τ => Window.since K.stamp (τ - K.window) (K.series h s)

theorem series_concat (h : List PacketData) (p : PacketData) (s : String) :
    K.series (h ++ [p]) s = K.series h s ++ (K.ownEntry s p).toList := by
  rw [series, List.filterMap_append]
  cases hown : K.ownEntry s p <;> simp [series, hown]

theorem stamp_ownEntry {s : String} {p : PacketData} {x : β} (h : K.ownEntry s p = some x) :
    K.stamp x = p.timestamp := by
  unfold ownEntry at h
  split at h
  · exact K.stamp_entry p x h
  · simp at h

theorem mem_series {h : List PacketData} {s : String} {x : β} (hx : x ∈ K.series h s) :
    ∃ p ∈ h, K.stamp x = p.timestamp := by
  obtain ⟨p, hp, hown⟩ := List.mem_filterMap.mp hx
  exact ⟨p, hp, K.stamp_ownEntry hown⟩

theorem chronological_series {h : List PacketData} (horder : InOrder h) (s : String) :
    Window.Chronological K.stamp (K.series h s) := by
  refine List.Pairwise.filterMap _ ?_ horder
  intro p q hpq x hx y hy
  rw [K.stamp_ownEntry hx, K.stamp_ownEntry hy]
  exact hpq

theorem horizon_concat (interval : Time) (s : String) (h : List PacketData) (p : PacketData) :
    K.horizon interval s (h ++ [p]) =
      if K.trims interval s h p then some p.timestamp else K.horizon interval s h := by
  unfold horizon
  rw [Machine.alongPrefixes_concat, List.reduceOption_append]
  split <;> simp

theorem horizon_mem {interval : Time} {s : String} {h : List PacketData} {τ : Time}
    (hτ : K.horizon interval s h = some τ) : ∃ p ∈ h, τ = p.timestamp := by
  induction h using List.reverseRecOn with
  | nil => simp [horizon, Machine.alongPrefixes] at hτ
  | append_singleton h p ih =>
    rw [horizon_concat] at hτ
    split at hτ
    · exact ⟨p, by simp, (Option.some.inj hτ).symm⟩
    · obtain ⟨q, hq, hτq⟩ := ih hτ
      exact ⟨q, by simp [hq], hτq⟩

/-- The first packet sweeps, so only the empty history has no horizon. -/
theorem horizon_eq_none {interval : Time} {s : String} {h : List PacketData}
    (hnone : K.horizon interval s h = none) : h = [] := by
  induction h using List.reverseRecOn with
  | nil => rfl
  | append_singleton h p ih =>
    rw [horizon_concat] at hnone
    split at hnone
    · simp at hnone
    · rename_i htrims
      have hnil := ih hnone
      subst hnil
      simp [trims, lastSweep, sweepDue] at htrims

/-- The step lemma: on chronological input, one packet takes the retained part of
the old history to the retained part of the new one. -/
theorem nextQueue_retained (interval : Time) {h : List PacketData} {p : PacketData}
    (horder : InOrder (h ++ [p])) (s : String) :
    K.nextQueue (K.ownEntry s p) (sweepDue interval (lastSweep interval h) p.timestamp)
        p.timestamp (K.retained interval h s) =
      K.retained interval (h ++ [p]) s := by
  have hwindow := K.window_nonneg
  have hseries := K.chronological_series horder s
  have hbefore : ∀ q ∈ h, q.timestamp ≤ p.timestamp := fun q hq =>
    (List.pairwise_append.mp horder).2.2 q hq p (by simp)
  have hlate : ∀ τ, K.horizon interval s h = some τ → τ ≤ p.timestamp := by
    intro τ hτ
    obtain ⟨q, hq, rfl⟩ := K.horizon_mem hτ
    exact hbefore q hq
  have hcutoff : ∀ τ, K.horizon interval s h = some τ → τ - K.window ≤ p.timestamp - K.window :=
    fun τ hτ => by linarith only [hlate τ hτ]
  cases hown : K.ownEntry s p with
  | none =>
    have hsame : K.series (h ++ [p]) s = K.series h s := by simp [K.series_concat, hown]
    rw [hsame] at hseries
    cases hdue : sweepDue interval (lastSweep interval h) p.timestamp with
    | false =>
      have hhorizon : K.horizon interval s (h ++ [p]) = K.horizon interval s h := by
        simp [K.horizon_concat, trims, hown, hdue]
      simp [nextQueue, retained, hhorizon, hsame]
    | true =>
      have hhorizon : K.horizon interval s (h ++ [p]) = some p.timestamp := by
        simp [K.horizon_concat, trims, hdue]
      simp only [nextQueue, retained, hhorizon, hsame, if_true]
      cases hτ : K.horizon interval s h with
      | none => simp [K.horizon_eq_none hτ, series]
      | some τ => exact Window.trim_since_of_le hseries (hcutoff τ hτ)
  | some x =>
    have hstamp := K.stamp_ownEntry hown
    have hsnoc : K.series (h ++ [p]) s = K.series h s ++ [x] := by simp [K.series_concat, hown]
    have hhorizon : K.horizon interval s (h ++ [p]) = some p.timestamp := by
      simp [K.horizon_concat, trims, hown]
    -- the queue with the new observation, trimmed at the packet's own cutoff
    have hpushed : Window.trim K.stamp (p.timestamp - K.window) (K.retained interval h s ++ [x]) =
        Window.since K.stamp (p.timestamp - K.window) (K.series (h ++ [p]) s) := by
      unfold retained
      cases hτ : K.horizon interval s h with
      | none =>
        rw [hsnoc] at hseries ⊢
        rw [K.horizon_eq_none hτ] at hseries ⊢
        exact Window.trim_eq_since hseries
      | some τ =>
        have hkeep : τ - K.window ≤ K.stamp x := by
          have := hlate τ hτ
          rw [hstamp]
          linarith only [this, hwindow]
        simp only
        rw [← Window.since_singleton_of_le hkeep, ← Window.since_append, ← hsnoc]
        exact Window.trim_since_of_le hseries (hcutoff τ hτ)
    have hnext : K.retained interval (h ++ [p]) s =
        Window.since K.stamp (p.timestamp - K.window) (K.series (h ++ [p]) s) := by
      simp [retained, hhorizon]
    rw [hnext]
    simp only [nextQueue, hpushed]
    split
    · exact Window.trim_since_of_le hseries (le_refl _)
    · rfl

end QueueKind

end SmartIDS.ThreatDetection
