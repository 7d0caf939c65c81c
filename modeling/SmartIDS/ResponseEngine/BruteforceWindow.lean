import SmartIDS.Foundation.Machine
import SmartIDS.ResponseEngine.Policy
set_option autoImplicit false

/-!
# ResponseEngine: the brute force count is an exact sliding window

`record_bruteforce_attempt` trims the deque of a target only when an attempt on
that target arrives, and only at its head.  As long as the time stamps never
decrease the deque still answers every later window of the attempts on its
target, and no other target has a part in it.
-/

namespace SmartIDS.ResponseEngine

open SmartIDS.Foundation SmartIDS.PacketCapture

namespace ResponsePolicy

/-- The policy as a machine: connection attempts in, suspicions out. -/
def machine : Machine ResponsePolicy PacketData Bool where
  step policy p := ((policy.recordBruteforceAttempt p).2, (policy.recordBruteforceAttempt p).1)

/-- The key an attempt is counted under, if its service is watched. -/
def target? (p : PacketData) : Option (String × String × ℕ) :=
  match p.dstPort with
  | none => none
  | some port => if port ∈ bruteforceServicePorts then some (p.srcIp, p.dstIp, port) else none

/-- The time stamps of the attempts on a target, oldest first. -/
def stamps (h : List PacketData) (key : String × String × ℕ) : List Time :=
  (h.filter fun p => target? p = some key).map PacketData.timestamp

/-- `q` has the source, the destination and the port of `p`. -/
def SameTriple (p q : PacketData) : Prop :=
  q.srcIp = p.srcIp ∧ q.dstIp = p.dstIp ∧ q.dstPort = p.dstPort

instance (p q : PacketData) : Decidable (SameTriple p q) := inferInstanceAs (Decidable (_ ∧ _))

/-- The attempts with the source, destination and port of `p` and a time stamp in
`[t - window, t]`, where `t` is the time of `p`. -/
def attemptsWithin (window : Time) (h : List PacketData) (p : PacketData) : ℕ :=
  h.countP fun q => SameTriple p q ∧
    p.timestamp - window ≤ q.timestamp ∧ q.timestamp ≤ p.timestamp

theorem recordBruteforceAttempt_of_none {p : PacketData} (h : target? p = none)
    (policy : ResponsePolicy) : policy.recordBruteforceAttempt p = (false, policy) := by
  unfold recordBruteforceAttempt
  unfold target? at h
  cases hport : p.dstPort with
  | none => rfl
  | some port =>
    simp only [hport, ite_eq_right_iff, reduceCtorEq, imp_false] at h
    simp only
    rw [if_neg h]

theorem recordBruteforceAttempt_of_some {p : PacketData} {key : String × String × ℕ}
    (h : target? p = some key) (policy : ResponsePolicy) :
    policy.recordBruteforceAttempt p =
      let bucket := Window.trim id (p.timestamp - policy.bruteforceWindowSeconds)
        (policy.attempts.queue key ++ [p.timestamp])
      (decide (policy.bruteforceAttemptThreshold ≤ bucket.length),
        { policy with attempts := policy.attempts.set key bucket }) := by
  unfold recordBruteforceAttempt
  unfold target? at h
  cases hport : p.dstPort with
  | none => simp [hport] at h
  | some port =>
    simp only [hport] at h
    split_ifs at h with hwatched
    obtain rfl := Option.some.inj h
    simp only
    rw [if_pos hwatched]

theorem stamps_concat (h : List PacketData) (p : PacketData) (key : String × String × ℕ) :
    stamps (h ++ [p]) key =
      stamps h key ++ if target? p = some key then [p.timestamp] else [] := by
  unfold stamps
  rw [List.filter_append, List.map_append]
  rcases em (target? p = some key) with hkey | hkey <;> simp [hkey]

theorem mem_stamps {h : List PacketData} {key : String × String × ℕ} {x : Time}
    (hx : x ∈ stamps h key) : ∃ p ∈ h, p.timestamp = x := by
  obtain ⟨p, hp, rfl⟩ := List.mem_map.mp hx
  exact ⟨p, (List.mem_filter.mp hp).1, rfl⟩

/-! ## The deques of a run -/

/-- After the attempts `h` every deque answers the windows that end at or after
the last of them. -/
structure Answers (window : Time) (threshold : ℤ) (h : List PacketData)
    (policy : ResponsePolicy) : Prop where
  windowSeconds : policy.bruteforceWindowSeconds = window
  attemptThreshold : policy.bruteforceAttemptThreshold = threshold
  chronological : ∀ key, Window.Chronological id (policy.attempts.queue key)
  recorded : ∀ key, ∀ x ∈ policy.attempts.queue key, ∃ p ∈ h, p.timestamp = x
  since : ∀ key t, (∀ p ∈ h, p.timestamp ≤ t) →
    Window.since id (t - window) (policy.attempts.queue key) =
      Window.since id (t - window) (stamps h key)

section step

variable {window : Time} {threshold : ℤ} {h : List PacketData} {policy : ResponsePolicy}
  {p : PacketData} {key : String × String × ℕ}

/-- The bucket that decides about an attempt is the window of all attempts on its
target. -/
theorem Answers.bucket (hpolicy : Answers window threshold h policy)
    (hlate : ∀ q ∈ h, q.timestamp ≤ p.timestamp) (hkey : target? p = some key) :
    Window.trim id (p.timestamp - window) (policy.attempts.queue key ++ [p.timestamp]) =
      Window.since id (p.timestamp - window) (stamps (h ++ [p]) key) := by
  have hchron : Window.Chronological id (policy.attempts.queue key ++ [p.timestamp]) := by
    refine (hpolicy.chronological key).concat ?_
    intro x hx
    obtain ⟨q, hq, rfl⟩ := hpolicy.recorded key x hx
    exact hlate q hq
  rw [Window.trim_eq_since hchron, stamps_concat, if_pos hkey, Window.since_append,
    Window.since_append, hpolicy.since key p.timestamp hlate]

theorem Answers.step (hpolicy : Answers window threshold h policy)
    (hlate : ∀ q ∈ h, q.timestamp ≤ p.timestamp) :
    Answers window threshold (h ++ [p]) (machine.step policy p).1 := by
  cases hkey : target? p with
  | none =>
    have hsame : ∀ key, stamps (h ++ [p]) key = stamps h key := fun key => by
      rw [stamps_concat, hkey, if_neg (by simp), List.append_nil]
    have hstep : (machine.step policy p).1 = policy := by
      show (policy.recordBruteforceAttempt p).2 = policy
      rw [recordBruteforceAttempt_of_none hkey]
    rw [hstep]
    refine ⟨hpolicy.windowSeconds, hpolicy.attemptThreshold, hpolicy.chronological, ?_, ?_⟩
    · intro key x hx
      obtain ⟨q, hq, hstamp⟩ := hpolicy.recorded key x hx
      exact ⟨q, List.mem_append_left _ hq, hstamp⟩
    · intro key t hlater
      rw [hsame]
      exact hpolicy.since key t fun q hq => hlater q (List.mem_append_left _ hq)
  | some key =>
    have hbucket := hpolicy.bucket hlate hkey
    have hqueue : ∀ j, (machine.step policy p).1.attempts.queue j =
        if j = key then Window.since id (p.timestamp - window) (stamps (h ++ [p]) key)
        else policy.attempts.queue j := by
      intro j
      show (policy.recordBruteforceAttempt p).2.attempts.queue j = _
      rw [recordBruteforceAttempt_of_some hkey, ← hbucket, ← hpolicy.windowSeconds]
      exact Dict.queue_set _ _ _ _
    have hrest : (machine.step policy p).1.bruteforceWindowSeconds = window ∧
        (machine.step policy p).1.bruteforceAttemptThreshold = threshold := by
      show (policy.recordBruteforceAttempt p).2.bruteforceWindowSeconds = window ∧
        (policy.recordBruteforceAttempt p).2.bruteforceAttemptThreshold = threshold
      rw [recordBruteforceAttempt_of_some hkey]
      exact ⟨hpolicy.windowSeconds, hpolicy.attemptThreshold⟩
    refine ⟨hrest.1, hrest.2, ?_, ?_, ?_⟩
    · intro j
      rw [hqueue]
      split_ifs
      · rw [← hbucket]
        refine List.Pairwise.sublist (List.dropWhile_sublist _)
          ((hpolicy.chronological key).concat fun x hx => ?_)
        obtain ⟨q, hq, rfl⟩ := hpolicy.recorded key x hx
        exact hlate q hq
      · exact hpolicy.chronological j
    · intro j x hx
      rw [hqueue] at hx
      split_ifs at hx
      · exact mem_stamps (List.mem_filter.mp hx).1
      · obtain ⟨q, hq, hstamp⟩ := hpolicy.recorded j x hx
        exact ⟨q, List.mem_append_left _ hq, hstamp⟩
    · intro j t hlater
      have hpt : p.timestamp ≤ t := hlater p (by simp)
      rw [hqueue]
      split_ifs with hj
      · rw [hj]
        exact Window.since_since_of_le (sub_le_sub_right hpt window)
      · rw [stamps_concat, hkey, if_neg fun heq => hj (Option.some.inj heq).symm, List.append_nil]
        exact hpolicy.since j t fun q hq => hlater q (List.mem_append_left _ hq)

end step

theorem answers_exec (window : Time) (threshold : ℤ) (calls : List PacketData)
    (horder : Window.Chronological PacketData.timestamp calls) :
    Answers window threshold calls (machine.exec (init window threshold) calls) := by
  refine @Machine.exec_history _ _ _ machine
    (fun h policy => Window.Chronological PacketData.timestamp h →
      Answers window threshold h policy) (init window threshold) ?_ ?_ calls horder
  · intro _
    refine ⟨rfl, rfl, ?_, ?_, ?_⟩
    · intro key
      exact List.Pairwise.nil
    · intro key x hx
      cases hx
    · intro key t _
      rfl
  · intro h p policy ih hchron
    obtain ⟨hbefore, -, hlast⟩ := List.pairwise_append.mp hchron
    exact (ih hbefore).step fun q hq => hlast q hq p (List.mem_singleton_self p)

/-! ## The answers -/

theorem target?_eq_some_iff {p : PacketData} {key : String × String × ℕ} :
    target? p = some key ↔
      p.dstPort = some key.2.2 ∧ key.2.2 ∈ bruteforceServicePorts ∧
        key.1 = p.srcIp ∧ key.2.1 = p.dstIp := by
  obtain ⟨src, dst, port⟩ := key
  unfold target?
  cases hport : p.dstPort with
  | none => simp
  | some q =>
    simp only
    split_ifs with hwatched
    · simp only [Option.some.injEq, Prod.mk.injEq]
      constructor
      · rintro ⟨rfl, rfl, rfl⟩
        exact ⟨rfl, hwatched, rfl, rfl⟩
      · rintro ⟨rfl, -, rfl, rfl⟩
        exact ⟨rfl, rfl, rfl⟩
    · simp only [false_iff, not_and, Option.some.injEq]
      rintro rfl hmem
      exact absurd hmem hwatched

/-- Under a watched port the packets of a target are the ones with its triple. -/
theorem target?_eq_iff_sameTriple {p q : PacketData} {key : String × String × ℕ}
    (hkey : target? p = some key) : target? q = some key ↔ SameTriple p q := by
  obtain ⟨hport, hwatched, hsrc, hdst⟩ := target?_eq_some_iff.mp hkey
  rw [target?_eq_some_iff, SameTriple, hport, ← hsrc, ← hdst]
  constructor
  · rintro ⟨hq, -, hs, hd⟩
    exact ⟨hs.symm, hd.symm, hq⟩
  · rintro ⟨hs, hd, hq⟩
    exact ⟨hq, hwatched, hs.symm, hd.symm⟩

theorem length_since_stamps {window : Time} {h : List PacketData} {p : PacketData}
    {key : String × String × ℕ} (hkey : target? p = some key)
    (hlate : ∀ q ∈ h, q.timestamp ≤ p.timestamp) :
    (Window.since id (p.timestamp - window) (stamps h key)).length =
      attemptsWithin window h p := by
  unfold Window.since stamps attemptsWithin
  rw [List.filter_map, List.length_map, List.filter_filter, ← List.countP_eq_length_filter]
  apply List.countP_congr
  intro q hq
  have hle := hlate q hq
  have htarget := target?_eq_iff_sameTriple (q := q) hkey
  simp only [Function.comp_apply, id_eq, Bool.and_eq_true, decide_eq_true_eq, htarget, hle,
    and_true]
  exact and_comm

/-- The answer of a policy that counted attempts in the order of their time stamps. -/
theorem Answers.answer {window : Time} {threshold : ℤ} {h : List PacketData}
    {policy : ResponsePolicy} {p : PacketData} (hpolicy : Answers window threshold h policy)
    (hlate : ∀ q ∈ h, q.timestamp ≤ p.timestamp) :
    (machine.step policy p).2 = true ↔
      (∃ port ∈ bruteforceServicePorts, p.dstPort = some port) ∧
        threshold ≤ attemptsWithin window (h ++ [p]) p := by
  show (policy.recordBruteforceAttempt p).1 = true ↔ _
  cases hkey : target? p with
  | none =>
    have hunwatched : ¬ ∃ port ∈ bruteforceServicePorts, p.dstPort = some port := by
      rintro ⟨port, hwatched, hport⟩
      have hsome : target? p = some (p.srcIp, p.dstIp, port) :=
        target?_eq_some_iff.mpr ⟨hport, hwatched, rfl, rfl⟩
      rw [hkey] at hsome
      cases hsome
    rw [recordBruteforceAttempt_of_none hkey]
    simp only [Bool.false_eq_true, false_iff, not_and]
    exact fun hwatched => absurd hwatched hunwatched
  | some key =>
    obtain ⟨hport, hwatched, -, -⟩ := target?_eq_some_iff.mp hkey
    have hlate' : ∀ q ∈ h ++ [p], q.timestamp ≤ p.timestamp := by
      intro q hq
      rcases List.mem_append.mp hq with hq | hq
      · exact hlate q hq
      · rw [List.mem_singleton.mp hq]
    rw [recordBruteforceAttempt_of_some hkey, hpolicy.windowSeconds, hpolicy.attemptThreshold]
    simp only [decide_eq_true_eq]
    rw [hpolicy.bucket hlate hkey, length_since_stamps hkey hlate']
    exact ⟨fun hcount => ⟨⟨key.2.2, hwatched, hport⟩, hcount⟩, fun hboth => hboth.2⟩

/-- The attempts on other triples do not count. -/
theorem attemptsWithin_filter_append (window : Time) (h rest : List PacketData)
    (p : PacketData) :
    attemptsWithin window ((h.filter fun q => SameTriple p q) ++ rest) p =
      attemptsWithin window (h ++ rest) p := by
  unfold attemptsWithin
  rw [List.countP_append, List.countP_append, List.countP_filter]
  congr 1
  apply List.countP_congr
  intro q _
  simp only [Bool.and_eq_true, decide_eq_true_eq]
  exact ⟨fun hboth => hboth.1, fun hq => ⟨hq, hq.1⟩⟩

/-- A suspicion is raised exactly on an attempt on a watched port that brings the
attempts of its triple within the window to the threshold, and it is raised all
the same when the attempts on other triples are left out. -/
theorem bruteforce_window_exact (window : Time) (threshold : ℤ) (calls : List PacketData)
    (p : PacketData) (horder : Window.Chronological PacketData.timestamp (calls ++ [p])) :
    ((machine.step (machine.exec (init window threshold) calls) p).2 = true ↔
      (∃ port ∈ bruteforceServicePorts, p.dstPort = some port) ∧
        threshold ≤ attemptsWithin window (calls ++ [p]) p) ∧
    (machine.step (machine.exec (init window threshold)
        (calls.filter fun q => SameTriple p q)) p).2 =
      (machine.step (machine.exec (init window threshold) calls) p).2 := by
  obtain ⟨hcalls, -, hlast⟩ := List.pairwise_append.mp horder
  have hlate : ∀ q ∈ calls, q.timestamp ≤ p.timestamp :=
    fun q hq => hlast q hq p (List.mem_singleton_self p)
  have hall := (answers_exec window threshold calls hcalls).answer hlate
  have hfew := (answers_exec window threshold (calls.filter fun q => SameTriple p q)
    (hcalls.filter _)).answer fun q hq => hlate q (List.mem_filter.mp hq).1
  refine ⟨hall, ?_⟩
  rw [Bool.eq_iff_iff, hall, hfew, attemptsWithin_filter_append]

/-- A login attempt on the SSH port. -/
def sshAttempt (src : String) (t : Time) : PacketData :=
  { srcIp := src, dstIp := "10.0.0.9", protocol := 6, packetSize := 60, timestamp := t,
    dstPort := some 22 }

/-- Of the three earlier attempts one is too old and one is of another source: the
new one is the second in its window, whose left end belongs to it. -/
theorem bruteforce_window_exact_at_boundary :
    (machine.step (machine.exec (init 90 2)
      [sshAttempt "10.0.0.5" 5, sshAttempt "10.0.0.5" 10, sshAttempt "10.0.0.6" 20])
      (sshAttempt "10.0.0.5" 100)).2 = true := by
  refine ((bruteforce_window_exact 90 2 _ (sshAttempt "10.0.0.5" 100) ?_).1).mpr ?_
  · unfold Window.Chronological
    decide +kernel
  · exact ⟨⟨22, by decide, rfl⟩, by decide +kernel⟩

end ResponsePolicy

end SmartIDS.ResponseEngine
