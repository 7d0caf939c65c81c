import SmartIDS.Foundation.Dispersion
import SmartIDS.TrafficEngine.TrafficSession
set_option autoImplicit false

/-!
# TrafficEngine: what the running statistics say

The getters of `session_builder/running_stats.py`, and what the accumulators
hold after a list of values: its length, its mean, the squared deviations from
it and its extremes.
-/

namespace SmartIDS.TrafficEngine

open SmartIDS.Foundation SmartIDS.PacketCapture

namespace RunningStats

def getMin (s : RunningStats) : ℚ :=
  match s.min with
  | none => 0
  | some least => least

def getMax (s : RunningStats) : ℚ :=
  match s.max with
  | none => 0
  | some greatest => greatest

def getMean (s : RunningStats) : ℚ := if s.count = 0 then 0 else s.mean

/-- The population variance. -/
def variance (s : RunningStats) : ℚ := if s.count < 2 then 0 else s.m2 / s.count

/-- `std`, with `math.sqrt` as an argument. -/
def std {R : Type} (sqrt : ℚ → R) (s : RunningStats) : R := sqrt s.variance

/-- The accumulators after these values. -/
structure Summarises (s : RunningStats) (values : List ℚ) : Prop where
  count : s.count = values.length
  mean : s.mean = Foundation.mean values
  m2 : s.m2 = deviation (Foundation.mean values) values
  min : s.min = values.min?
  max : s.max = values.max?

theorem summarises_init : Summarises init [] where
  count := rfl
  mean := mean_nil.symm
  m2 := rfl
  min := rfl
  max := rfl

/-- One value more. -/
theorem Summarises.update {s : RunningStats} {values : List ℚ} (h : Summarises s values)
    (value : ℚ) : Summarises (s.update value) (values ++ [value]) := by
  have hmean : (s.update value).mean = Foundation.mean (values ++ [value]) := by
    show s.mean + (value - s.mean) / ((s.count + 1 : ℕ) : ℚ) = _
    rw [mean_concat, h.mean, h.count, Nat.cast_add, Nat.cast_one]
  constructor
  · show s.count + 1 = _
    rw [h.count, List.length_append, List.length_singleton]
  · exact hmean
  · show s.m2 + (value - s.mean) * (value - (s.update value).mean) = _
    rw [hmean, h.m2, h.mean, deviation_concat]
  · rw [min?_concat, ← h.min]
    unfold RunningStats.update
    simp only
    cases s.min with
    | none => rfl
    | some least =>
      simp only [Option.elim_some]
      split_ifs with hlt
      · rw [min_eq_right hlt.le]
      · rw [min_eq_left (not_lt.mp hlt)]
  · rw [max?_concat, ← h.max]
    unfold RunningStats.update
    simp only
    cases s.max with
    | none => rfl
    | some greatest =>
      simp only [Option.elim_some]
      split_ifs with hlt
      · rw [max_eq_right hlt.le]
      · rw [max_eq_left (not_lt.mp hlt)]

end RunningStats

namespace TrafficSession

/-- A list of lengths as `float` reads it. -/
def floats (lengths : List ℤ) : List ℚ := lengths.map fun n : ℤ => (n : ℚ)

theorem floats_concat (lengths : List ℤ) (n : ℤ) :
    floats (lengths ++ [n]) = floats lengths ++ [(n : ℚ)] := by
  rw [floats, List.map_append]
  rfl

/-- The accumulators of a session mirror its lists. -/
structure Mirrored (s : TrafficSession) : Prop where
  packetLengths : s.packetLengthStats.Summarises (floats s.packetLengths)
  fwdPacketLengths : s.fwdPacketLengthStats.Summarises (floats s.fwdPacketLengths)

theorem mirrored_opened (p : PacketData) : Mirrored (opened p) where
  packetLengths := RunningStats.summarises_init
  fwdPacketLengths := RunningStats.summarises_init

/-- Every packet, forward or not, keeps the mirrors. -/
theorem Mirrored.update {s : TrafficSession} (h : Mirrored s) (p : PacketData) :
    Mirrored (s.update p) := by
  have htotals : Mirrored (updateTotals s p) := by
    refine ⟨?_, h.fwdPacketLengths⟩
    show (s.packetLengthStats.update p.packetSize).Summarises
      (floats (s.packetLengths ++ [p.packetSize]))
    rw [floats_concat]
    exact h.packetLengths.update _
  have hforward : ∀ t : TrafficSession, Mirrored t → Mirrored (updateForward t p) := by
    intro t ht
    refine ⟨ht.packetLengths, ?_⟩
    show (t.fwdPacketLengthStats.update p.packetSize).Summarises
      (floats (t.fwdPacketLengths ++ [p.packetSize]))
    rw [floats_concat]
    exact ht.fwdPacketLengths.update _
  have hflags : ∀ t : TrafficSession, Mirrored t → Mirrored (updateTcpFlags t p) :=
    fun t ht => ⟨ht.packetLengths, ht.fwdPacketLengths⟩
  unfold TrafficSession.update
  simp only
  apply hflags
  split_ifs
  · exact hforward _ htotals
  · exact htotals

theorem mirrored_foldl (ps : List PacketData) {s : TrafficSession} (h : Mirrored s) :
    Mirrored (ps.foldl update s) := by
  induction ps generalizing s with
  | nil => exact h
  | cons p ps ih => exact ih (h.update p)

/-- Whatever packets built a session. -/
theorem mirrored_of_recorded {ps : List PacketData} {s : TrafficSession}
    (h : recorded ps = some s) : Mirrored s := by
  cases ps with
  | nil => cases h
  | cons p rest =>
    rw [recorded, Option.some.injEq] at h
    rw [← h]
    exact mirrored_foldl _ (mirrored_opened p)

end TrafficSession

end SmartIDS.TrafficEngine
