import SmartIDS.ResponseEngine.BlockerSpec
set_option autoImplicit false

/-!
# ResponseEngine: how the deadline of a block moves

The deadline of an address is written by every granted block request and dropped
by sweeps and manual unblocks.  A granted request overwrites it, with a later or
with an earlier one; nothing else shortens it.
-/

namespace SmartIDS.ResponseEngine

open SmartIDS.Foundation SmartIDS.PacketCapture SmartIDS.Python

namespace AutoBlocker

variable {Φ Ω : Type}

/-- The deadline of an address, if it has one. -/
def deadline (b : AutoBlocker Φ) (ip : String) : Option Time := b.blockedUntil.get? ip

/-- A block request is granted: the address is valid, the cooldown is over, the
firewall holds a rule or accepts one, and the deadline is a float.  The firewall
is asked after the sweep the request starts with. -/
def Granted (fw : Option (FirewallAdapter Φ Ω)) (h : Host Ω) (ip : String) (duration : ℤ)
    (b : AutoBlocker Φ) : Prop :=
  match fw with
  | none => False
  | some adapter =>
    isValidRoutableIp ip = true ∧
      (expireBlocks fw h b).coolingDown h.clock.now ip = false ∧
      accepts adapter h.outcomes ip (expireBlocks fw h b).firewall = true ∧
      FitsDouble (max 1 duration)

instance (fw : Option (FirewallAdapter Φ Ω)) (h : Host Ω) (ip : String) (duration : ℤ)
    (b : AutoBlocker Φ) : Decidable (Granted fw h ip duration b) :=
  match fw with
  | none => inferInstanceAs (Decidable False)
  | some _ => inferInstanceAs (Decidable (_ ∧ _ ∧ _ ∧ _))

/-- The deadline a request granted on this host writes. -/
def grantedDeadline (h : Host Ω) (duration : ℤ) : Time := h.clock.now + (max 1 duration : ℤ)

/-- The ways an operation can end a block granted until `d`, or shorten it. -/
def Curtails (fw : Option (FirewallAdapter Φ Ω)) (ip : String) (d : Time) (b : AutoBlocker Φ) :
    Operation Ω → Prop
  | .manualUnblock _ j => j = ip
  | .expireBlocks h => d ≤ h.clock.expireTime
  | .tempBlock h j duration | .manualBlock h j duration =>
    d ≤ h.clock.expireTime ∨ (j = ip ∧ Granted fw h ip duration b ∧ grantedDeadline h duration < d)

/-! ## One call -/

/-- A sweep before the deadline leaves it alone. -/
theorem deadline_expireBlocks (fw : Option (FirewallAdapter Φ Ω)) {h : Host Ω} {b : AutoBlocker Φ}
    {ip : String} {d : Time} (hd : b.deadline ip = some d) (hlive : h.clock.expireTime < d) :
    (expireBlocks fw h b).deadline ip = some d := by
  cases fw with
  | none => exact hd
  | some adapter =>
    have hnot : ip ∉ b.expired h.clock.expireTime := by
      rw [mem_expired_iff]
      rintro ⟨until_, huntil, hle⟩
      rw [deadline] at hd
      rw [hd, Option.some.injEq] at huntil
      exact absurd (huntil ▸ hle) (not_le.mpr hlive)
    rw [deadline, get?_blockedUntil_expireBlocks, if_neg hnot]
    exact hd

theorem deadline_enforce_self (adapter : FirewallAdapter Φ Ω) (h : Host Ω) (ip : String)
    (duration : ℤ) (b : AutoBlocker Φ) :
    (enforce adapter h ip duration b).2.deadline ip =
      if accepts adapter h.outcomes ip b.firewall = true ∧ FitsDouble (max 1 duration) then
        some (grantedDeadline h duration)
      else b.deadline ip := by
  rw [deadline, (enforced adapter h ip duration b).blockedUntil]
  split_ifs
  · exact Dict.get?_set_self _ _ _
  · rfl

theorem deadline_enforce_of_ne (adapter : FirewallAdapter Φ Ω) (h : Host Ω) {ip j : String}
    (duration : ℤ) (b : AutoBlocker Φ) (hne : ip ≠ j) :
    (enforce adapter h j duration b).2.deadline ip = b.deadline ip := by
  rw [deadline, (enforced adapter h j duration b).blockedUntil]
  split_ifs
  · exact Dict.get?_set_of_ne _ _ hne
  · rfl

/-- A block request on a live address writes the deadline it is granted and
otherwise leaves the old one. -/
theorem deadline_tempBlock_self (fw : Option (FirewallAdapter Φ Ω)) {h : Host Ω} {ip : String}
    (duration : ℤ) {b : AutoBlocker Φ} {d : Time} (hd : b.deadline ip = some d)
    (hlive : h.clock.expireTime < d) :
    (tempBlock fw h ip duration b).2.deadline ip =
      if Granted fw h ip duration b then some (grantedDeadline h duration) else some d := by
  cases fw with
  | none => exact hd
  | some adapter =>
    cases hip : isValidRoutableIp ip with
    | false =>
      rw [tempBlock_of_invalid _ _ _ _ hip, if_neg (by simp [Granted, hip])]
      exact hd
    | true =>
      have hswept := deadline_expireBlocks (some adapter) hd hlive
      rw [tempBlock_of_valid _ _ _ _ hip]
      cases hcool : (expireBlocks (some adapter) h b).coolingDown h.clock.now ip with
      | true =>
        rw [if_pos rfl, if_neg (by simp [Granted, hcool])]
        exact hswept
      | false =>
        rw [if_neg (by simp), deadline_enforce_self, hswept]
        simp only [Granted, hip, hcool, true_and]

theorem deadline_tempBlock_of_ne (fw : Option (FirewallAdapter Φ Ω)) {h : Host Ω} {ip j : String}
    (duration : ℤ) {b : AutoBlocker Φ} {d : Time} (hne : ip ≠ j) (hd : b.deadline ip = some d)
    (hlive : h.clock.expireTime < d) :
    (tempBlock fw h j duration b).2.deadline ip = some d := by
  cases fw with
  | none => exact hd
  | some adapter =>
    cases hj : isValidRoutableIp j with
    | false =>
      rw [tempBlock_of_invalid _ _ _ _ hj]
      exact hd
    | true =>
      have hswept := deadline_expireBlocks (some adapter) hd hlive
      rw [tempBlock_of_valid _ _ _ _ hj]
      split_ifs
      · exact hswept
      · rw [deadline_enforce_of_ne _ _ _ _ hne]
        exact hswept

theorem deadline_manualUnblock_of_ne (fw : Option (FirewallAdapter Φ Ω)) (h : Host Ω)
    {ip j : String} (b : AutoBlocker Φ) (hne : ip ≠ j) :
    (manualUnblock fw h j b).2.deadline ip = b.deadline ip := by
  cases fw with
  | none => rfl
  | some adapter =>
    unfold manualUnblock
    cases hj : isValidRoutableIp j with
    | false => rfl
    | true =>
      simp only [if_true]
      split_ifs
      · exact Dict.get?_erase_of_ne _ hne
      · rfl

/-! ## Runs -/

/-- The address is blocked until `d` at least. -/
def BlockedUntil (ip : String) (d : Time) (b : AutoBlocker Φ) : Prop :=
  ∃ d', b.deadline ip = some d' ∧ d ≤ d'

/-- An operation that does not curtail the block keeps it. -/
theorem BlockedUntil.step {fw : Option (FirewallAdapter Φ Ω)} {ip : String} {d : Time}
    {b : AutoBlocker Φ} {op : Operation Ω} (hblocked : BlockedUntil ip d b)
    (hop : ¬ Curtails fw ip d b op) : BlockedUntil ip d ((machine fw).step b op).1 := by
  obtain ⟨d', hd', hle⟩ := hblocked
  have request : ∀ (h : Host Ω) (j : String) (duration : ℤ),
      ¬ (d ≤ h.clock.expireTime ∨
        (j = ip ∧ Granted fw h ip duration b ∧ grantedDeadline h duration < d)) →
      BlockedUntil ip d (tempBlock fw h j duration b).2 := by
    intro h j duration hnot
    rw [not_or, not_le] at hnot
    have hlive : h.clock.expireTime < d' := hnot.1.trans_le hle
    rcases eq_or_ne ip j with rfl | hne
    · rw [BlockedUntil, deadline_tempBlock_self fw duration hd' hlive]
      split_ifs with hgranted
      · refine ⟨_, rfl, ?_⟩
        by_contra hlt
        exact hnot.2 ⟨rfl, hgranted, not_le.mp hlt⟩
      · exact ⟨d', rfl, hle⟩
    · exact ⟨d', deadline_tempBlock_of_ne fw duration hne hd' hlive, hle⟩
  cases op with
  | tempBlock h j duration => exact request h j duration hop
  | manualBlock h j duration => exact request h j duration hop
  | manualUnblock h j =>
    refine ⟨d', ?_, hle⟩
    rw [← hd']
    exact deadline_manualUnblock_of_ne fw h b (Ne.symm hop)
  | expireBlocks h =>
    have hlive : h.clock.expireTime < d' := (not_le.mp hop).trans_le hle
    exact ⟨d', deadline_expireBlocks fw hd' hlive, hle⟩

/-- The deadline of a live address in a reachable state.  A block request on it
moves the deadline exactly when it is granted, and then to its own; and the
block lasts until its deadline through every run in which no operation curtails
it. -/
theorem deadline_of_live (fw : Option (FirewallAdapter Φ Ω)) (firewall : Φ)
    (ops : List (Operation Ω)) (ip : String) (d : Time)
    (hd : ((machine fw).exec (init firewall) ops).deadline ip = some d) :
    let b := (machine fw).exec (init firewall) ops
    (∀ h duration, h.clock.now < d →
      (tempBlock fw h ip duration b).2.deadline ip =
        if Granted fw h ip duration b then some (grantedDeadline h duration) else some d) ∧
    (∀ later, (machine fw).Guarded (fun b op => ¬ Curtails fw ip d b op) b later →
      (machine fw).Always (BlockedUntil ip d) b later) := by
  intro b
  constructor
  · intro h duration hnow
    exact deadline_tempBlock_self fw duration hd (h.clock.expireTime_le_now.trans_lt hnow)
  · intro later hguard
    apply Machine.always_of_guarded _ _ _ hguard
    · intro b op hblocked hop
      exact hblocked.step hop
    · exact ⟨d, hd, le_refl d⟩

/-- A day-long block requested by the operator, and 300 s requested a minute later. -/
def dayThenMinutes : List (Operation CommandOutcomes) :=
  [.manualBlock (Host.frozen 1000 .allRun lt_maxSeconds_1000) "198.51.100.7" 86400]

/-- After the cooldown the short request is granted on the rule it finds. -/
theorem deadline_of_live_dayThenMinutes :
    (tempBlock (some linuxAdapter) (Host.frozen 1060 .allRun (by decide)) "198.51.100.7" 300
      ((machine (some linuxAdapter)).exec (init []) dayThenMinutes)).2.deadline "198.51.100.7" =
      some 1360 := by
  have hlive := deadline_of_live (some linuxAdapter) [] dayThenMinutes "198.51.100.7" 87400
    (by decide +kernel)
  have hmoved := hlive.1 (Host.frozen 1060 .allRun (by decide)) 300 (by decide +kernel)
  rw [hmoved]
  decide +kernel

/-- A granted block can end earlier than the one it replaces. -/
theorem deadline_cut_short :
    ¬ ∀ (ops : List (Operation CommandOutcomes)) (h : Host CommandOutcomes) (ip : String)
        (duration : ℤ) (d : Time),
      Nondecreasing (ops ++ [.tempBlock h ip duration]) →
      ((machine (some linuxAdapter)).exec (init []) ops).deadline ip = some d → h.clock.now < d →
      BlockedUntil ip d
        (tempBlock (some linuxAdapter) h ip duration
          ((machine (some linuxAdapter)).exec (init []) ops)).2 := by
  intro hall
  obtain ⟨d', hd', hle⟩ := hall dayThenMinutes (Host.frozen 1060 .allRun (by decide))
    "198.51.100.7" 300 87400 (by unfold Nondecreasing; decide +kernel) (by decide +kernel)
    (by decide +kernel)
  have hcut : (tempBlock (some linuxAdapter) (Host.frozen 1060 .allRun (by decide)) "198.51.100.7"
      300 ((machine (some linuxAdapter)).exec (init []) dayThenMinutes)).2.deadline
        "198.51.100.7" = some 1360 := by decide +kernel
  rw [hcut, Option.some.injEq] at hd'
  rw [← hd'] at hle
  norm_num at hle

end AutoBlocker

end SmartIDS.ResponseEngine
