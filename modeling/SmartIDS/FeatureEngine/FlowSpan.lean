import Mathlib.Data.List.Sort
import SmartIDS.FeatureEngine.FeatureCoherence
set_option autoImplicit false

/-!
# FeatureEngine: the duration of a flow and the span of its time stamps

The inter-arrival statistics sort the time stamps of a session, and their total
is the span from the least to the greatest.  The duration is the distance from
the first packet to the one recorded last.  The two agree exactly when these
packets carry the least and the greatest time stamp.
-/

namespace SmartIDS.FeatureEngine

open SmartIDS.Foundation SmartIDS.ML SmartIDS.PacketCapture SmartIDS.Python SmartIDS.TrafficEngine
  TrafficSession

/-- The distance from the least to the greatest time stamp. -/
def span (timestamps : List Time) : Time := safeMax timestamps - safeMin timestamps

/-! ## The total of the inter-arrival times -/

theorem gaps_cons_cons (x y : ℚ) (rest : List ℚ) :
    gaps (x :: y :: rest) = (y - x) :: gaps (y :: rest) := rfl

/-- The differences of neighbours add up to the distance of the ends. -/
theorem sum_gaps (x : ℚ) (rest : List ℚ) :
    (gaps (x :: rest)).sum = (x :: rest).getLast (List.cons_ne_nil _ _) - x := by
  induction rest generalizing x with
  | nil => exact (sub_self x).symm
  | cons y rest ih =>
    rw [gaps_cons_cons, List.sum_cons, ih, List.getLast_cons_cons]
    ring

theorem gaps_nonneg {ordered : List ℚ} (h : ordered.Pairwise (· ≤ ·)) :
    ∀ gap ∈ gaps ordered, 0 ≤ gap := by
  induction ordered with
  | nil => exact fun gap hgap => absurd hgap List.not_mem_nil
  | cons x rest ih =>
    obtain ⟨hx, hrest⟩ := List.pairwise_cons.mp h
    cases rest with
    | nil => exact fun gap hgap => absurd hgap List.not_mem_nil
    | cons y rest =>
      rw [gaps_cons_cons]
      intro gap hgap
      rcases List.mem_cons.mp hgap with rfl | hgap
      · exact sub_nonneg.mpr (hx y List.mem_cons_self)
      · exact ih hrest gap hgap

theorem pairwise_mergeSort (timestamps : List ℚ) : timestamps.mergeSort.Pairwise (· ≤ ·) :=
  List.pairwise_mergeSort' (· ≤ ·) timestamps

/-- Nothing is lost by the cleaning: neighbours of a sorted list are in order. -/
theorem cleanedIats_eq (timestamps : List ℚ) : cleanedIats timestamps = gaps timestamps.mergeSort := by
  rw [cleanedIats, List.filter_eq_self]
  intro gap hgap
  exact decide_eq_true (gaps_nonneg (pairwise_mergeSort timestamps) gap hgap)

/-- The ends of a sorted list are the least and the greatest element. -/
theorem span_eq_of_mergeSort {timestamps rest : List ℚ} {x : ℚ}
    (hsorted : timestamps.mergeSort = x :: rest) :
    span timestamps = (x :: rest).getLast (List.cons_ne_nil _ _) - x := by
  have hpairwise := pairwise_mergeSort timestamps
  have hmem : ∀ {y}, y ∈ timestamps ↔ y ∈ x :: rest := by
    intro y
    rw [← hsorted]
    exact List.mem_mergeSort.symm
  rw [hsorted] at hpairwise
  have hmin : timestamps.min? = some x := by
    rw [List.min?_eq_some_iff]
    refine ⟨hmem.mpr List.mem_cons_self, ?_⟩
    intro y hy
    rcases List.mem_cons.mp (hmem.mp hy) with rfl | hy
    · exact le_refl _
    · exact (List.pairwise_cons.mp hpairwise).1 y hy
  have hmax : timestamps.max? = some ((x :: rest).getLast (List.cons_ne_nil _ _)) := by
    rw [List.max?_eq_some_iff]
    refine ⟨hmem.mpr (List.getLast_mem _), ?_⟩
    intro y hy
    exact hpairwise.rel_getLast (hmem.mp hy)
  rw [span, safeMin, safeMax, hmin, hmax]
  rfl

/-- The total of the inter-arrival times is the span. -/
theorem total_safeIatStats {R : Type} [Zero R] (sqrt : ℚ → R) (timestamps : List ℚ) :
    (safeIatStats sqrt timestamps).total = span timestamps := by
  have hsum : (cleanedIats timestamps).sum = span timestamps := by
    rw [cleanedIats_eq]
    cases hsorted : timestamps.mergeSort with
    | nil =>
      have hnil : timestamps = [] := by
        have hperm := List.mergeSort_perm timestamps fun x y => decide (x ≤ y)
        rw [hsorted] at hperm
        exact hperm.nil_eq.symm
      rw [hnil]
      exact (sub_self (0 : ℚ)).symm
    | cons x rest => rw [sum_gaps, span_eq_of_mergeSort hsorted]
  unfold safeIatStats
  split_ifs with hshort
  · match timestamps, hshort with
    | [], _ => exact (sub_self (0 : ℚ)).symm
    | [x], _ => exact (sub_self x).symm
  · split
    · rename_i hempty
      rw [← hsum, hempty]
      rfl
    · exact hsum

/-! ## The duration -/

/-- The time stamps of some packets. -/
def stampsOf (ps : List PacketData) : List Time := ps.map (·.timestamp)

/-- No packet is older than the first or younger than the last. -/
def Bracketed (ps : List PacketData) : Prop :=
  ∀ first ∈ ps.head?, ∀ last ∈ ps.getLast?, ∀ p ∈ ps,
    first.timestamp ≤ p.timestamp ∧ p.timestamp ≤ last.timestamp

/-- The flow features of a vector are those of the span of the packets. -/
structure AgreesWithSpan (ps : List PacketData) (vector : List (String × ℝ)) : Prop where
  flowDuration : column vector "flow_duration" = ((span (stampsOf ps) : ℚ) : ℝ)
  fwdIatTotal : column vector "flow_duration" = column vector "fwd_iat_total"
  flowBytesPerSec : column vector "flow_bytes_per_sec" =
    ((safeRate ((ps.map (·.packetSize)).sum : ℤ) (some (span (stampsOf ps))) : ℚ) : ℝ)
  flowPacketsPerSec : column vector "flow_packets_per_sec" =
    ((safeRate ps.length (some (span (stampsOf ps))) : ℚ) : ℝ)
  fwdPacketsPerSec : column vector "fwd_packets_per_sec" =
    ((safeRate ps.length (some (span (stampsOf ps))) : ℚ) : ℝ)

theorem safeMin_le {values : List ℚ} {x : ℚ} (hx : x ∈ values) : safeMin values ≤ x := by
  obtain ⟨least, hleast⟩ :=
    Option.isSome_iff_exists.mp (List.isSome_min?_of_ne_nil (List.ne_nil_of_mem hx))
  rw [safeMin, hleast]
  exact (List.min?_eq_some_iff.mp hleast).2 x hx

theorem le_safeMax {values : List ℚ} {x : ℚ} (hx : x ∈ values) : x ≤ safeMax values := by
  obtain ⟨greatest, hgreatest⟩ :=
    Option.isSome_iff_exists.mp (List.isSome_max?_of_ne_nil (List.ne_nil_of_mem hx))
  rw [safeMax, hgreatest]
  exact (List.max?_eq_some_iff.mp hgreatest).2 x hx

theorem safeMin_mem {values : List ℚ} (hne : values ≠ []) : safeMin values ∈ values := by
  obtain ⟨least, hleast⟩ := Option.isSome_iff_exists.mp (List.isSome_min?_of_ne_nil hne)
  rw [safeMin, hleast]
  exact List.min?_mem hleast

theorem safeMax_mem {values : List ℚ} (hne : values ≠ []) : safeMax values ∈ values := by
  obtain ⟨greatest, hgreatest⟩ := Option.isSome_iff_exists.mp (List.isSome_max?_of_ne_nil hne)
  rw [safeMax, hgreatest]
  exact List.max?_mem hgreatest

/-- The distance of two elements, taken for 0 when it is negative, is the span
exactly when they are the least and the greatest. -/
theorem max_sub_eq_span_iff {values : List ℚ} {first last : ℚ} (hfirst : first ∈ values)
    (hlast : last ∈ values) :
    max 0 (last - first) = span values ↔ ∀ x ∈ values, first ≤ x ∧ x ≤ last := by
  have hmin := safeMin_le hfirst
  have hmax := le_safeMax hlast
  constructor
  · intro hspan x hx
    have hlow := safeMin_le hx
    have hhigh := le_safeMax hx
    rw [span] at hspan
    rcases max_cases 0 (last - first) with ⟨hzero, hle⟩ | ⟨hdist, -⟩
    · -- all elements are equal
      rw [hzero] at hspan
      have hlast' := safeMin_le hlast
      have hfirst' := le_safeMax hfirst
      constructor <;> linarith
    · rw [hdist] at hspan
      constructor <;> linarith
  · intro hends
    have hleast : safeMin values = first :=
      le_antisymm hmin (hends _ (safeMin_mem (List.ne_nil_of_mem hfirst))).1
    have hgreatest : safeMax values = last :=
      le_antisymm (hends _ (safeMax_mem (List.ne_nil_of_mem hfirst))).2 hmax
    rw [span, hleast, hgreatest]
    exact max_eq_right (sub_nonneg.mpr (hends first hfirst).2)

/-- The duration of a session is its span exactly when its packets are bracketed. -/
theorem duration_eq_span_iff {ps : List PacketData} {session : TrafficSession}
    (h : recorded ps = some session) :
    session.duration = span (stampsOf ps) ↔ Bracketed ps := by
  have hdescribes := recorded_describes h
  obtain ⟨first, hfirst, hstart⟩ := Option.map_eq_some_iff.mp hdescribes.startTime
  obtain ⟨last, hlast, hseen⟩ := Option.map_eq_some_iff.mp hdescribes.lastSeen
  have hfirst' : first.timestamp ∈ stampsOf ps := List.mem_map_of_mem (List.mem_of_head? hfirst)
  have hlast' : last.timestamp ∈ stampsOf ps := List.mem_map_of_mem (List.mem_of_getLast? hlast)
  rw [duration, ← hstart, ← hseen, max_sub_eq_span_iff hfirst' hlast', Bracketed, hfirst, hlast]
  simp only [Option.mem_some_iff, forall_eq', stampsOf, List.forall_mem_map]

/-- In any order of arrival the inter-arrival total is the span. -/
theorem column_fwdIatTotal {ps : List PacketData} {session : TrafficSession}
    (h : Directed ps session) :
    column (featureValues exactSqrt session) "fwd_iat_total" = ((span (stampsOf ps) : ℚ) : ℝ) := by
  show (((safeIatStats exactSqrt session.fwdPacketTimestamps).total : ℚ) : ℝ) = _
  rw [total_safeIatStats, h.fwdPacketTimestamps, h.packetTimestamps, stampsOf]

theorem agreesWithSpan_iff {ps : List PacketData} {session : TrafficSession} {k : SessionKey}
    (hrecorded : recorded ps = some session) (hkey : ∀ p ∈ ps, SessionKey.fromPacket p = k) :
    AgreesWithSpan ps (featureValues exactSqrt session) ↔ Bracketed ps := by
  have hdirected := directed_of_recorded hrecorded hkey
  have hduration : column (featureValues exactSqrt session) "flow_duration" =
      ((session.duration : ℚ) : ℝ) := rfl
  rw [← duration_eq_span_iff hrecorded]
  constructor
  · intro h
    have hspan := h.flowDuration
    rw [hduration] at hspan
    exact Rat.cast_injective hspan
  · intro hspan
    constructor
    · rw [hduration, hspan]
    · rw [hduration, column_fwdIatTotal hdirected, hspan]
    · show ((safeRate session.totalBytes (some session.duration) : ℚ) : ℝ) = _
      rw [hspan, hdirected.totalBytes]
    · show ((safeRate session.packetCount (some session.duration) : ℚ) : ℝ) = _
      rw [hspan, hdirected.packetCount]
    · show ((safeRate session.fwdPacketCount (some session.duration) : ℚ) : ℝ) = _
      rw [hspan, hdirected.fwdPacketCount, hdirected.packetCount]

/-- A packet of one flow. -/
def datagram (t : Time) : PacketData :=
  { srcIp := "10.0.0.1", dstIp := "10.0.0.2", protocol := 17, packetSize := 100, timestamp := t }

/-- Three packets of one flow, the last two swapped on their way. -/
def swapped : List PacketData := [datagram 10, datagram 12, datagram 11]

/-- Their session lasts one second and its inter-arrival times add up to two. -/
theorem duration_misses_span :
    ∃ session ∈ SessionBuilder.sessionsOf (swapped.map .processPacket),
      recorded swapped = some session ∧
        ∃ vector, extract exactSqrt false session = .ok ⟨vector, []⟩ ∧
          column vector "flow_duration" = 1 ∧ column vector "fwd_iat_total" = 2 ∧
          ¬ AgreesWithSpan swapped vector := by
  have hrecorded : recorded swapped = some (swapped.foldl update (opened (datagram 10))) := rfl
  have hkey : ∀ p ∈ swapped, SessionKey.fromPacket p = SessionKey.fromPacket (datagram 10) := by
    decide
  refine ⟨swapped.foldl update (opened (datagram 10)), by decide +kernel, hrecorded,
    featureValues exactSqrt _, features_extract _ _, ?_, ?_, ?_⟩
  · have hduration : (swapped.foldl update (opened (datagram 10))).duration = 1 := by decide +kernel
    show (((swapped.foldl update (opened (datagram 10))).duration : ℚ) : ℝ) = 1
    rw [hduration, Rat.cast_one]
  · have hspan : span (stampsOf swapped) = 2 := by decide +kernel
    rw [column_fwdIatTotal (directed_of_recorded hrecorded hkey), hspan, Rat.cast_ofNat]
  · have hloose : ¬ Bracketed swapped := by
      intro h
      have := (h (datagram 10) rfl (datagram 11) rfl (datagram 12) (by decide)).2
      revert this
      decide +kernel
    exact fun h => hloose ((agreesWithSpan_iff hrecorded hkey).mp h)

/-- The features of a session agree with the span of its time stamps exactly when
its first packet is the oldest and its last the youngest. -/
theorem flow_duration_agrees_iff (validate : Bool) (ps : List PacketData)
    (session : TrafficSession) (k : SessionKey) (hrecorded : recorded ps = some session)
    (hkey : ∀ p ∈ ps, SessionKey.fromPacket p = k) :
    ∃ vector, extract exactSqrt validate session = .ok ⟨vector, []⟩ ∧
      column vector "fwd_iat_total" = ((span (stampsOf ps) : ℚ) : ℝ) ∧
      (AgreesWithSpan ps vector ↔ Bracketed ps) :=
  ⟨featureValues exactSqrt session, extract_eq validate (mirrored_of_recorded hrecorded),
    column_fwdIatTotal (directed_of_recorded hrecorded hkey), agreesWithSpan_iff hrecorded hkey⟩

/-- Two packets in order. -/
theorem flow_duration_agrees_in_order :
    ∃ vector, extract exactSqrt true
        ([datagram 10, datagram 12].foldl update (opened (datagram 10))) = .ok ⟨vector, []⟩ ∧
      AgreesWithSpan [datagram 10, datagram 12] vector := by
  obtain ⟨vector, hvector, -, hiff⟩ := flow_duration_agrees_iff true [datagram 10, datagram 12] _
    (SessionKey.fromPacket (datagram 10)) rfl (by decide)
  refine ⟨vector, hvector, hiff.mpr ?_⟩
  intro first hfirst last hlast p hp
  rw [← Option.mem_some_iff.mp hfirst, ← Option.mem_some_iff.mp hlast]
  revert p
  decide +kernel

end SmartIDS.FeatureEngine
