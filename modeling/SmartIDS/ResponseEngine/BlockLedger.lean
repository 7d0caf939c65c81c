import SmartIDS.ResponseEngine.BlockerSpec
set_option autoImplicit false

/-!
# ResponseEngine: the deadline ledger against the firewall's rules

A rule the blocker appended to the firewall is lifted by a later sweep only if
the address is still in the ledger of deadlines.  This module says when that
holds throughout a run over the Linux adapter, whatever the commands do.

The commands are followed through the rules of one address at a time: a delete
drops the first of them and touches no other address.
-/

namespace SmartIDS.ResponseEngine

open SmartIDS.Foundation SmartIDS.PacketCapture SmartIDS.Python

/-! ## The rules of one address -/

namespace Chain

/-- The rules for an address, in the order of the chain. -/
def rulesOf (c : Chain) (ip : String) : List Rule := c.filter (·.source = ip)

/-- The chain holds a rule for the address that the blocker appended. -/
def Owns (c : Chain) (ip : String) : Prop := (⟨ip, true⟩ : Rule) ∈ c

instance (c : Chain) (ip : String) : Decidable (c.Owns ip) := inferInstanceAs (Decidable (_ ∈ _))

theorem owns_iff (c : Chain) (ip : String) : c.Owns ip ↔ (⟨ip, true⟩ : Rule) ∈ c.rulesOf ip := by
  simp [Owns, rulesOf]

theorem hasRule_iff (c : Chain) (ip : String) : c.hasRule ip = true ↔ c.rulesOf ip ≠ [] := by
  simp [hasRule, rulesOf, List.filter_eq_nil_iff]

theorem rulesOf_eraseP_self (c : Chain) (ip : String) :
    rulesOf (c.eraseP (·.source = ip)) ip = (c.rulesOf ip).tail := by
  induction c with
  | nil => rfl
  | cons r rest ih =>
    rcases eq_or_ne r.source ip with hr | hr
    · simp [rulesOf, hr]
    · simpa [rulesOf, hr] using ih

theorem rulesOf_eraseP_of_ne (c : Chain) {ip j : String} (hne : j ≠ ip) :
    rulesOf (c.eraseP (·.source = ip)) j = c.rulesOf j := by
  induction c with
  | nil => rfl
  | cons r rest ih =>
    simp only [rulesOf, List.filter_cons, List.eraseP_cons] at ih ⊢
    rcases eq_or_ne r.source ip with hr | hr
    · have hj : r.source ≠ j := fun hrj => hne (hrj.symm.trans hr)
      simp [hr, hr ▸ hj]
    · simp [hr, ih, List.filter_cons]

/-- The rules a delete leaves for its address. -/
def afterDelete (o : CommandOutcomes) (ip : String) (c : Chain) : List Rule :=
  if o.delete ip then (c.rulesOf ip).tail else c.rulesOf ip

end Chain

theorem rulesOf_unblockIp_self (o : CommandOutcomes) (ip : String) (c : Chain) :
    Chain.rulesOf (linuxAdapter.unblockIp o ip c).2 ip = c.afterDelete o ip := by
  rw [linuxAdapter_unblockIp, Chain.afterDelete]
  cases hdelete : o.delete ip with
  | false => simp
  | true =>
    rcases em (c.rulesOf ip = []) with hnone | hsome
    · have hhas : c.hasRule ip = false := by
        rw [← Bool.not_eq_true, Chain.hasRule_iff, not_not]
        exact hnone
      simp [hhas, hnone]
    · have hhas : c.hasRule ip = true := (Chain.hasRule_iff c ip).mpr hsome
      simp [hhas, Chain.rulesOf_eraseP_self]

theorem rulesOf_unblockIp_of_ne (o : CommandOutcomes) {ip j : String} (c : Chain) (hne : j ≠ ip) :
    Chain.rulesOf (linuxAdapter.unblockIp o ip c).2 j = c.rulesOf j := by
  rw [linuxAdapter_unblockIp]
  split_ifs
  · exact Chain.rulesOf_eraseP_of_ne c hne
  · rfl

/-- A block request appends at most one rule, and only when both look-ups missed
whatever rules the address has. -/
theorem mem_firewallAfter_iff (o : CommandOutcomes) (ip : String) (c : Chain) (r : Rule) :
    r ∈ AutoBlocker.firewallAfter linuxAdapter o ip c ↔
      r ∈ c ∨ (r = ⟨ip, true⟩ ∧
        (c.rulesOf ip = [] ∨ (o.check ip = false ∧ o.recheck ip = false)) ∧
        o.append ip = true) := by
  have hnil : c.rulesOf ip = [] ↔ c.hasRule ip = false := by
    rw [← Bool.not_eq_true, Chain.hasRule_iff, not_not]
  rw [hnil]
  unfold AutoBlocker.firewallAfter linuxAdapter run
  cases hhas : c.hasRule ip <;> cases hcheck : o.check ip <;> cases hrecheck : o.recheck ip <;>
    cases happend : o.append ip <;> simp [hhas, hcheck, hrecheck, happend]

theorem accepts_linux (o : CommandOutcomes) (ip : String) (c : Chain) :
    AutoBlocker.accepts linuxAdapter o ip c =
      ((o.check ip || o.recheck ip) && c.hasRule ip || o.append ip) := by
  unfold AutoBlocker.accepts linuxAdapter run
  cases hhas : c.hasRule ip <;> cases hcheck : o.check ip <;> cases hrecheck : o.recheck ip <;>
    cases happend : o.append ip <;> simp [hhas, hcheck, hrecheck, happend]

/-! ## Covered rules -/

namespace AutoBlocker

/-- Every rule of the blocker belongs to an address with a deadline. -/
def Covered (b : AutoBlocker Chain) : Prop := ∀ ip, b.firewall.Owns ip → ip ∈ b.blockedUntil.keys

/-- The deletes of a sweep leave none of the blocker's rules for the addresses
whose deadline has passed. -/
def SweepLifts (h : Host CommandOutcomes) (b : AutoBlocker Chain) : Prop :=
  ∀ ip ∈ b.expired h.clock.expireTime,
    (⟨ip, true⟩ : Rule) ∉ b.firewall.afterDelete h.outcomes ip

instance (h : Host CommandOutcomes) (b : AutoBlocker Chain) : Decidable (SweepLifts h b) :=
  inferInstanceAs (Decidable (∀ ip ∈ b.expired h.clock.expireTime, _))

/-- The rules of an address after the sweep a block request starts with. -/
def sweptRules (h : Host CommandOutcomes) (ip : String) (b : AutoBlocker Chain) : List Rule :=
  if ip ∈ b.expired h.clock.expireTime then b.firewall.afterDelete h.outcomes ip
  else b.firewall.rulesOf ip

/-- A block request reaches the command that appends a rule, and it runs. -/
def AppendsRule (h : Host CommandOutcomes) (ip : String) (b : AutoBlocker Chain) : Prop :=
  (ip ∈ b.expired h.clock.expireTime ∨ b.coolingDown h.clock.now ip = false) ∧
    (b.sweptRules h ip = [] ∨ (h.outcomes.check ip = false ∧ h.outcomes.recheck ip = false)) ∧
    h.outcomes.append ip = true

/-- The deadline of a block request is written down along with its rule: it is a
float, or no rule is appended, or the address keeps an earlier deadline. -/
def LedgersRule (h : Host CommandOutcomes) (ip : String) (duration : ℤ) (b : AutoBlocker Chain) :
    Prop :=
  FitsDouble (max 1 duration) ∨ ¬ AppendsRule h ip b ∨
    (ip ∈ b.blockedUntil.keys ∧ ip ∉ b.expired h.clock.expireTime)

/-- The condition under which an operation leaves no rule behind. -/
def Lifts (b : AutoBlocker Chain) : Operation CommandOutcomes → Prop
  | .expireBlocks h => SweepLifts h b
  | .tempBlock h ip duration | .manualBlock h ip duration =>
    isValidRoutableIp ip = true → SweepLifts h b ∧ LedgersRule h ip duration b
  | .manualUnblock h ip =>
    isValidRoutableIp ip = true → h.outcomes.delete ip = true →
      (⟨ip, true⟩ : Rule) ∉ (b.firewall.rulesOf ip).tail

instance (h : Host CommandOutcomes) (ip : String) (b : AutoBlocker Chain) :
    Decidable (AppendsRule h ip b) := inferInstanceAs (Decidable (_ ∧ _ ∧ _))

instance (h : Host CommandOutcomes) (ip : String) (duration : ℤ) (b : AutoBlocker Chain) :
    Decidable (LedgersRule h ip duration b) := inferInstanceAs (Decidable (_ ∨ _ ∨ _))

instance (b : AutoBlocker Chain) : ∀ op, Decidable (Lifts b op)
  | .expireBlocks h => inferInstanceAs (Decidable (SweepLifts h b))
  | .tempBlock _ _ _ => inferInstanceAs (Decidable (_ → _ ∧ _))
  | .manualBlock _ _ _ => inferInstanceAs (Decidable (_ → _ ∧ _))
  | .manualUnblock _ _ => inferInstanceAs (Decidable (_ → _ → _))

theorem rulesOf_foldl_expireOne (h : Host CommandOutcomes) (ip : String) :
    ∀ (ips : List String) (b : AutoBlocker Chain), ips.Nodup →
      Chain.rulesOf (ips.foldl (expireOne linuxAdapter h) b).firewall ip =
        if ip ∈ ips then b.firewall.afterDelete h.outcomes ip else b.firewall.rulesOf ip := by
  intro ips
  induction ips with
  | nil => intro b _; rfl
  | cons j ips ih =>
    intro b hnodup
    obtain ⟨hj, hnodup⟩ := List.nodup_cons.mp hnodup
    rw [List.foldl_cons, ih _ hnodup, firewall_expireOne]
    rcases eq_or_ne ip j with rfl | hne
    · rw [if_neg hj, rulesOf_unblockIp_self, if_pos List.mem_cons_self]
    · have hafter : Chain.afterDelete h.outcomes ip (linuxAdapter.unblockIp h.outcomes j b.firewall).2 =
          b.firewall.afterDelete h.outcomes ip := by
        unfold Chain.afterDelete
        rw [rulesOf_unblockIp_of_ne _ _ hne]
      rw [hafter, rulesOf_unblockIp_of_ne _ _ hne]
      simp [hne]

theorem rulesOf_expireBlocks (h : Host CommandOutcomes) (b : AutoBlocker Chain) (ip : String) :
    Chain.rulesOf (expireBlocks (some linuxAdapter) h b).firewall ip = b.sweptRules h ip :=
  rulesOf_foldl_expireOne h ip _ b (nodup_expired b _)

theorem mem_keys_expireBlocks (h : Host CommandOutcomes) (b : AutoBlocker Chain) (ip : String) :
    ip ∈ (expireBlocks (some linuxAdapter) h b).blockedUntil.keys ↔
      ip ∈ b.blockedUntil.keys ∧ ip ∉ b.expired h.clock.expireTime := by
  rw [← Dict.get?_isSome_iff, get?_blockedUntil_expireBlocks, ← Dict.get?_isSome_iff]
  split_ifs with hexp <;> simp [hexp]

theorem coolingDown_expireBlocks (h : Host CommandOutcomes) (b : AutoBlocker Chain) (ip : String) :
    (expireBlocks (some linuxAdapter) h b).coolingDown h.clock.now ip = false ↔
      ip ∈ b.expired h.clock.expireTime ∨ b.coolingDown h.clock.now ip = false := by
  unfold coolingDown
  rw [get?_lastBlockTime_expireBlocks]
  split_ifs with hexp <;> simp [hexp]

/-! ## One step -/

theorem Covered.expireBlocks {h : Host CommandOutcomes} {b : AutoBlocker Chain} (hcov : Covered b)
    (hlifts : SweepLifts h b) : Covered (expireBlocks (some linuxAdapter) h b) := by
  intro ip howns
  rw [Chain.owns_iff, rulesOf_expireBlocks, sweptRules] at howns
  rw [mem_keys_expireBlocks]
  split_ifs at howns with hexp
  · exact absurd howns (hlifts ip hexp)
  · exact ⟨hcov ip ((Chain.owns_iff _ _).mpr howns), hexp⟩

theorem Covered.enforce {h : Host CommandOutcomes} {ip : String} {duration : ℤ}
    {b : AutoBlocker Chain} (hcov : Covered b)
    (hledger : FitsDouble (max 1 duration) ∨ ip ∈ b.blockedUntil.keys ∨
      ¬ ((b.firewall.rulesOf ip = [] ∨
          (h.outcomes.check ip = false ∧ h.outcomes.recheck ip = false)) ∧
        h.outcomes.append ip = true)) :
    Covered (enforce linuxAdapter h ip duration b).2 := by
  have hspec := enforced linuxAdapter h ip duration b
  intro j howns
  have hkeys : j ∈ b.blockedUntil.keys →
      j ∈ (AutoBlocker.enforce linuxAdapter h ip duration b).2.blockedUntil.keys := by
    intro hj
    rw [hspec.blockedUntil]
    split_ifs
    · exact (Dict.mem_keys_set _ _ _ _).mpr (Or.inr hj)
    · exact hj
  rw [Chain.Owns, hspec.firewall, mem_firewallAfter_iff] at howns
  rcases howns with hold | ⟨heq, hmiss, happend⟩
  · exact hkeys (hcov j hold)
  · -- the request has just appended the rule
    obtain rfl : j = ip := congrArg Rule.source heq
    rcases hledger with hfits | hkey | hnot
    · have haccepts : accepts linuxAdapter h.outcomes j b.firewall = true := by
        rw [accepts_linux, happend, Bool.or_true]
      rw [hspec.blockedUntil, if_pos ⟨haccepts, hfits⟩]
      exact (Dict.mem_keys_set _ _ _ _).mpr (Or.inl rfl)
    · exact hkeys hkey
    · exact absurd ⟨hmiss, happend⟩ hnot

theorem Covered.tempBlock {h : Host CommandOutcomes} {ip : String} {duration : ℤ}
    {b : AutoBlocker Chain} (hcov : Covered b)
    (hlifts : isValidRoutableIp ip = true → SweepLifts h b ∧ LedgersRule h ip duration b) :
    Covered (tempBlock (some linuxAdapter) h ip duration b).2 := by
  cases hip : isValidRoutableIp ip with
  | false =>
    rw [AutoBlocker.tempBlock_of_invalid _ _ _ _ hip]
    exact hcov
  | true =>
    obtain ⟨hsweep, hledger⟩ := hlifts hip
    have hswept := hcov.expireBlocks hsweep
    rw [AutoBlocker.tempBlock_of_valid _ _ _ _ hip]
    split_ifs with hcool
    · exact hswept
    · apply hswept.enforce
      rcases hledger with hfits | hnot | hkey
      · exact Or.inl hfits
      · refine Or.inr (Or.inr fun hadds => hnot ⟨?_, ?_, hadds.2⟩)
        · exact (coolingDown_expireBlocks h b ip).mp (by simpa using hcool)
        · rw [← rulesOf_expireBlocks]
          exact hadds.1
      · exact Or.inr (Or.inl ((mem_keys_expireBlocks h b ip).mpr hkey))

theorem Covered.manualUnblock {h : Host CommandOutcomes} {ip : String} {b : AutoBlocker Chain}
    (hcov : Covered b)
    (hlifts : isValidRoutableIp ip = true → h.outcomes.delete ip = true →
      (⟨ip, true⟩ : Rule) ∉ (b.firewall.rulesOf ip).tail) :
    Covered (manualUnblock (some linuxAdapter) h ip b).2 := by
  have hother : ∀ j, j ≠ ip →
      Chain.Owns (linuxAdapter.unblockIp h.outcomes ip b.firewall).2 j → j ∈ b.blockedUntil.keys := by
    intro j hne howns
    rw [Chain.owns_iff, rulesOf_unblockIp_of_ne _ _ hne, ← Chain.owns_iff] at howns
    exact hcov j howns
  unfold AutoBlocker.manualUnblock
  cases hip : isValidRoutableIp ip with
  | false => exact hcov
  | true =>
    simp only [if_true]
    cases hok : (linuxAdapter.unblockIp h.outcomes ip b.firewall).1.1 with
    | false =>
      -- the delete failed, so the chain and the ledger are as they were
      have hsame : (linuxAdapter.unblockIp h.outcomes ip b.firewall).2 = b.firewall := by
        rw [linuxAdapter_unblockIp] at hok ⊢
        split_ifs at hok ⊢
        rfl
      intro j howns
      simp only [Bool.false_eq_true, if_false, hsame] at howns ⊢
      exact hcov j howns
    | true =>
      have hdelete : h.outcomes.delete ip = true := by
        rw [linuxAdapter_unblockIp] at hok
        split_ifs at hok with hcond
        rw [Bool.and_eq_true] at hcond
        exact hcond.1
      intro j howns
      have hne : j ≠ ip := by
        rintro rfl
        have hrules := (Chain.owns_iff _ _).mp howns
        have hrest := hlifts hip hdelete
        rw [if_pos rfl] at hrules
        have hafter := rulesOf_unblockIp_self h.outcomes j b.firewall
        rw [Chain.afterDelete, if_pos hdelete] at hafter
        exact hrest (hafter ▸ hrules)
      rw [if_pos rfl] at howns ⊢
      exact (Dict.mem_keys_erase _ _ _).mpr ⟨hother j hne howns, hne⟩

theorem Covered.step {b : AutoBlocker Chain} {op : Operation CommandOutcomes} (hcov : Covered b)
    (hlifts : Lifts b op) : Covered ((machine (some linuxAdapter)).step b op).1 := by
  cases op with
  | tempBlock h ip duration => exact hcov.tempBlock hlifts
  | manualBlock h ip duration => exact hcov.tempBlock hlifts
  | manualUnblock h ip => exact hcov.manualUnblock hlifts
  | expireBlocks h => exact hcov.expireBlocks hlifts

/-! ## Runs -/

/-- On a host whose chain starts without rules of the blocker, every run whose
operations leave no rule behind keeps every rule covered. -/
theorem always_covered (c : Chain) (hfresh : ∀ ip, ¬ c.Owns ip)
    (ops : List (Operation CommandOutcomes))
    (hlifts : (machine (some linuxAdapter)).Guarded Lifts (init c) ops) :
    (machine (some linuxAdapter)).Always Covered (init c) ops := by
  apply Machine.always_of_guarded _ _ _ hlifts
  · intro b op hcov hop
    exact hcov.step hop
  · intro ip howns
    exact absurd howns (hfresh ip)

/-- Every command but the deletes runs. -/
def deletesFail : CommandOutcomes := ⟨fun _ => true, fun _ => true, fun _ => true, fun _ => false⟩

/-- A 300 s block that is lifted by the sweep of the next request. -/
def blockThenSweep (outcomes : CommandOutcomes) : List (Operation CommandOutcomes) :=
  [.tempBlock (Host.frozen 1000 CommandOutcomes.allRun lt_maxSeconds_1000) "198.51.100.7"
      300,
    .expireBlocks (Host.frozen 1300 outcomes (by decide))]

theorem always_covered_blockThenSweep :
    (machine (some linuxAdapter)).Guarded Lifts (init []) (blockThenSweep CommandOutcomes.allRun) ∧
      (machine (some linuxAdapter)).Always Covered (init []) (blockThenSweep CommandOutcomes.allRun) := by
  have hlifts : (machine (some linuxAdapter)).Guarded Lifts (init []) (blockThenSweep CommandOutcomes.allRun) := by
    decide +kernel
  exact ⟨hlifts, always_covered [] (fun ip => List.not_mem_nil) _ hlifts⟩

/-- A failing delete leaves a rule with no deadline: the sweep drops the ledger
entry all the same. -/
theorem expired_rule_not_covered :
    ¬ ∀ ops : List (Operation CommandOutcomes), Nondecreasing ops →
      (machine (some linuxAdapter)).Always Covered (init []) ops := by
  intro hall
  have hrun := hall (blockThenSweep deletesFail) (by unfold Nondecreasing; decide +kernel)
  rw [Machine.always_iff] at hrun
  have hfinal := hrun _ [] (List.append_nil _).symm "198.51.100.7" (by decide +kernel)
  revert hfinal
  decide +kernel

end AutoBlocker

end SmartIDS.ResponseEngine
