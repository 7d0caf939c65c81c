import SmartIDS.ResponseEngine.LoggedBlocker
set_option autoImplicit false

/-!
# ResponseEngine: block requests that end in an exception

The deadline `_record` writes down is computed after the rule and the books are in
place, and the two log files are written after that.  A request whose deadline is no
date, or one of whose lines cannot be written, therefore raises with its effects kept.
Elsewhere a request raises in the expiry sweep at most, when nothing is blocked yet.
-/

namespace SmartIDS.ResponseEngine

open SmartIDS.Foundation SmartIDS.PacketCapture SmartIDS.Python

namespace LoggedBlocker

variable {Φ Ω : Type}

/-- If the request raises, nothing has happened but the expiry of blocks that were due. -/
def FailsCleanly (fw : Option (FirewallAdapter Φ Ω)) (h : LoggedHost Ω) (s : LoggedBlocker Φ)
    (request : Effect PyError (LoggedBlocker Φ) (Bool × String)) : Prop :=
  ∀ e, (request s).1 = .error e →
    PartlySwept fw h.host (s.blocker.expired h.host.clock.expireTime) s.blocker
      (request s).2.blocker

/-- An address blocked at this very moment is cooling down. -/
theorem coolingDown_of_get?_eq_now {b : AutoBlocker Φ} {now : Time} {ip : String}
    (h : b.lastBlockTime.get? ip = some now) : b.coolingDown now ip = true := by
  unfold AutoBlocker.coolingDown
  rw [h]
  simp only [sub_self, decide_eq_true_eq]
  decide +kernel

/-- A block that was granted shows in the books: no sweep leaves them so. -/
theorem not_partlySwept_of_granted {fw : FirewallAdapter Φ Ω} {h : Host Ω} {ip : String}
    (duration : ℤ) {b b' : AutoBlocker Φ}
    (hcool : (AutoBlocker.expireBlocks (some fw) h b).coolingDown h.clock.now ip = false)
    (hlast : b'.lastBlockTime =
      (AutoBlocker.expireBlocks (some fw) h b).lastBlockTime.set ip h.clock.now)
    (huntil : b'.blockedUntil = if FitsDouble (max 1 duration) then
        (AutoBlocker.expireBlocks (some fw) h b).blockedUntil.set ip
          (h.clock.now + (max 1 duration : ℤ))
      else (AutoBlocker.expireBlocks (some fw) h b).blockedUntil) :
    ¬ PartlySwept (some fw) h (b.expired h.clock.expireTime) b b' := by
  rintro ⟨⟨asked, dropped, -, -, -, huntil', hlast'⟩, -⟩
  have hnow : (dropped.foldl Dict.erase b.lastBlockTime).get? ip = some h.clock.now := by
    rw [← hlast', hlast, Dict.get?_set_self]
  rw [Dict.get?_foldl_erase] at hnow
  split_ifs at hnow with hdropped
  -- the books as they were, at this address
  have hsame : b'.blockedUntil.get? ip = b.blockedUntil.get? ip := by
    rw [huntil', Dict.get?_foldl_erase, if_neg hdropped]
  rcases em (ip ∈ b.expired h.clock.expireTime) with hdue | hdue
  · obtain ⟨until_, hold, hpast⟩ := (AutoBlocker.mem_expired_iff b _ ip).mp hdue
    rw [huntil, hold] at hsame
    split_ifs at hsame with hfits
    · rw [Dict.get?_set_self, Option.some.injEq] at hsame
      have hone : (1 : ℤ) ≤ max 1 duration := le_max_left _ _
      have hone' : (1 : ℚ) ≤ (max 1 duration : ℤ) := by exact_mod_cast hone
      have hclock := h.clock.expireTime_le_now
      linarith
    · rw [AutoBlocker.get?_blockedUntil_expireBlocks, if_pos hdue] at hsame
      cases hsame
  · have hkept : (AutoBlocker.expireBlocks (some fw) h b).lastBlockTime.get? ip =
        some h.clock.now := by
      rw [AutoBlocker.get?_lastBlockTime_expireBlocks, if_neg hdue, hnow]
    rw [coolingDown_of_get?_eq_now hkept] at hcool
    cases hcool

/-- A block that is granted once the sweep is over is written down: its deadline is a date, and
both lines are written. -/
def GrantWritten (fw : Option (FirewallAdapter Φ Ω)) (h : LoggedHost Ω) (ip : String)
    (duration : ℤ) (s : LoggedBlocker Φ) : Prop :=
  match fw with
  | none => True
  | some adapter =>
    Dated h.host duration ∧ BlockWritten adapter h ip duration (expireBlocks fw h s).2

theorem tempBlock_none (h : LoggedHost Ω) (ip : String) (duration : ℤ) (s : LoggedBlocker Φ) :
    tempBlock none h ip duration s = (.ok (false, "unsupported_platform"), s) := rfl

theorem tempBlock_of_invalid (fw : FirewallAdapter Φ Ω) (h : LoggedHost Ω) {ip : String}
    (duration : ℤ) (s : LoggedBlocker Φ) (hip : AutoBlocker.isValidRoutableIp ip = false) :
    tempBlock (some fw) h ip duration s = (.ok (false, "invalid_or_loopback_ip"), s) := by
  unfold tempBlock
  rw [hip]
  rfl

/-- A request on a valid address: the sweep, the cooldown, and what is left. -/
theorem tempBlock_of_valid (fw : FirewallAdapter Φ Ω) (h : LoggedHost Ω) {ip : String}
    (duration : ℤ) (s : LoggedBlocker Φ) (hip : AutoBlocker.isValidRoutableIp ip = true) :
    tempBlock (some fw) h ip duration s =
      match expireBlocks (some fw) h s with
      | (.ok _, t) =>
        if t.blocker.coolingDown h.host.clock.now ip then (.ok (false, "cooldown_active"), t)
        else enforce fw h ip duration t
      | (.error e, t) => (.error e, t) := by
  unfold tempBlock
  rw [hip]
  dsimp only
  rw [if_pos rfl, Effect.bind_apply]
  rcases expireBlocks (some fw) h s with ⟨result, t⟩
  cases result with
  | error e => rfl
  | ok u =>
    dsimp only
    rw [Effect.bind_of_ok (Effect.get_apply t)]
    split_ifs <;> rfl

/-- Where both lines are written, so is the end of a request. -/
theorem enforce_of_written {b : AutoBlocker Φ} {t : LoggedBlocker Φ}
    (hbooks : b.SameBooks t.blocker) (fw : FirewallAdapter Φ Ω) (h : LoggedHost Ω) (ip : String) (duration : ℤ)
    (hwritten : AutoBlocker.accepts fw h.host.outcomes ip b.firewall = true →
      Dated h.host duration ∧ BlockWritten fw h ip duration t) :
    (∃ answer, (enforce fw h ip duration t).1 = .ok answer ∧
        (AutoBlocker.enforce fw h.host ip duration b).1 = .ok answer) ∧
      (AutoBlocker.enforce fw h.host ip duration b).2.SameBooks
        (enforce fw h ip duration t).2.blocker := by
  obtain ⟨hsame, hreturns, hanswer⟩ := enforce_spec fw h ip duration t
  rw [hbooks.firewall] at hreturns
  obtain ⟨answer, hok⟩ := hreturns.mpr hwritten
  refine ⟨⟨answer, hok, ?_⟩, (sameBooks_enforce hbooks fw h.host ip duration).trans hsame⟩
  rw [hanswer answer hok, hbooks.firewall]
  cases haccepts : AutoBlocker.accepts fw h.host.outcomes ip b.firewall with
  | false => exact AutoBlocker.enforce_of_refused haccepts
  | true => exact AutoBlocker.enforce_of_recordable fw ip _ (hwritten haccepts).1.recordable

/-- Where every line is written, a request is one of the blocker alone: it answers the same, and
leaves the same firewall and the same books. -/
theorem tempBlock_of_written (fw : Option (FirewallAdapter Φ Ω)) (h : LoggedHost Ω) (ip : String)
    (duration : ℤ) (s : LoggedBlocker Φ) (hsweep : SweepWritten fw h s)
    (hgrant : AutoBlocker.Enforceable fw h.host ip s.blocker → GrantWritten fw h ip duration s) :
    (∃ answer, (tempBlock fw h ip duration s).1 = .ok answer ∧
        (AutoBlocker.tempBlock fw h.host ip duration s.blocker).1 = .ok answer) ∧
      (AutoBlocker.tempBlock fw h.host ip duration s.blocker).2.SameBooks
        (tempBlock fw h ip duration s).2.blocker := by
  cases fw with
  | none => exact ⟨⟨_, rfl, rfl⟩, .refl _⟩
  | some fw =>
    cases hip : AutoBlocker.isValidRoutableIp ip with
    | false =>
      have hrun := tempBlock_of_invalid fw h duration s hip
      rw [hrun, AutoBlocker.tempBlock_of_invalid fw h.host duration s.blocker hip]
      exact ⟨⟨_, rfl, rfl⟩, .refl _⟩
    | true =>
      have hswept := expireBlocks_cases (some fw) h s
      unfold GrantWritten at hgrant
      rw [tempBlock_of_valid fw h duration s hip,
        AutoBlocker.tempBlock_of_valid fw h.host duration s.blocker hip]
      rcases hrun : expireBlocks (some fw) h s with ⟨result, t⟩
      rw [hrun] at hswept hgrant
      rcases hswept with ⟨-, hok, hbooks⟩ | ⟨hnot, -, -⟩
      · obtain rfl : result = .ok () := hok
        replace hbooks : (AutoBlocker.expireBlocks (some fw) h.host s.blocker).SameBooks
            t.blocker := hbooks
        dsimp only
        rw [hbooks.coolingDown]
        cases hcool : (AutoBlocker.expireBlocks (some fw) h.host s.blocker).coolingDown
          h.host.clock.now ip with
        | true => exact ⟨⟨_, rfl, rfl⟩, hbooks⟩
        | false =>
          rw [if_neg Bool.false_ne_true, if_neg Bool.false_ne_true]
          exact enforce_of_written hbooks fw h ip duration fun haccepts =>
            hgrant ⟨hip, hcool, haccepts⟩
      · exact absurd hsweep hnot

/-- Behind a sweep that came to its end, a request fails cleanly exactly if the block it is
granted is written down. -/
theorem partlySwept_enforce_iff (fw : FirewallAdapter Φ Ω) (h : LoggedHost Ω) {ip : String}
    (duration : ℤ) {s t : LoggedBlocker Φ}
    (hbooks : (AutoBlocker.expireBlocks (some fw) h.host s.blocker).SameBooks t.blocker)
    (hcool : (AutoBlocker.expireBlocks (some fw) h.host s.blocker).coolingDown
      h.host.clock.now ip = false) :
    (∀ e, (enforce fw h ip duration t).1 = .error e →
        PartlySwept (some fw) h.host (s.blocker.expired h.host.clock.expireTime) s.blocker
          (enforce fw h ip duration t).2.blocker) ↔
      (AutoBlocker.accepts fw h.host.outcomes ip t.blocker.firewall = true →
        Dated h.host duration ∧ BlockWritten fw h ip duration t) := by
  obtain ⟨hsame, hreturns, -⟩ := enforce_spec fw h ip duration t
  have henforced := AutoBlocker.enforced fw h.host ip duration t.blocker
  constructor
  · intro hclean haccepts
    by_contra hnot
    cases hend : (enforce fw h ip duration t).1 with
    | ok answer => exact hnot (hreturns.mp ⟨answer, hend⟩ haccepts)
    | error e =>
      refine not_partlySwept_of_granted duration hcool ?_ ?_ (hclean e hend)
      · rw [hsame.lastBlockTime, henforced.lastBlockTime, if_pos haccepts, hbooks.lastBlockTime]
      · rw [hsame.blockedUntil, henforced.blockedUntil, hbooks.blockedUntil, haccepts]
        simp only [true_and]
  · intro hwritten e he
    obtain ⟨answer, hok⟩ := hreturns.mpr hwritten
    rw [hok] at he
    cases he

theorem failsCleanly_tempBlock_iff (fw : Option (FirewallAdapter Φ Ω)) (h : LoggedHost Ω)
    (ip : String) (duration : ℤ) (s : LoggedBlocker Φ) :
    FailsCleanly fw h s (tempBlock fw h ip duration) ↔
      (SweepWritten fw h s → AutoBlocker.Enforceable fw h.host ip s.blocker →
        GrantWritten fw h ip duration s) := by
  cases fw with
  | none =>
    refine iff_of_true (fun e he => ?_) fun _ henforce => henforce.elim
    rw [tempBlock_none] at he
    cases he
  | some fw =>
    cases hip : AutoBlocker.isValidRoutableIp ip with
    | false =>
      refine iff_of_true (fun e he => ?_) fun _ henforce =>
        absurd (hip.symm.trans henforce.1) Bool.false_ne_true
      rw [tempBlock_of_invalid fw h duration s hip] at he
      cases he
    | true =>
      have hrun := tempBlock_of_valid fw h duration s hip
      have hsweep := expireBlocks_cases (some fw) h s
      unfold FailsCleanly GrantWritten
      rw [hrun]
      rcases hswept : expireBlocks (some fw) h s with ⟨result, t⟩
      rw [hswept] at hsweep
      rcases hsweep with ⟨hwritten, hok, hbooks⟩ | ⟨hwritten, ⟨e, he⟩, hpart⟩
      · obtain rfl : result = .ok () := hok
        replace hbooks : (AutoBlocker.expireBlocks (some fw) h.host s.blocker).SameBooks
            t.blocker := hbooks
        dsimp only
        rw [hbooks.coolingDown]
        cases hcool : (AutoBlocker.expireBlocks (some fw) h.host s.blocker).coolingDown
          h.host.clock.now ip with
        | true =>
          refine iff_of_true (fun e he => absurd he (by simp)) fun _ henforce => ?_
          exact absurd (hcool.symm.trans henforce.2.1) Bool.noConfusion
        | false =>
          rw [if_neg Bool.false_ne_true, partlySwept_enforce_iff fw h duration hbooks hcool,
            hbooks.firewall]
          exact ⟨fun hall _ henforce => hall henforce.2.2,
            fun hall haccepts => hall hwritten ⟨hip, hcool, haccepts⟩⟩
      · obtain rfl : result = .error e := he
        exact iff_of_true (fun _ _ => hpart) fun hall => absurd hall hwritten

/-- A block request that raises changes nothing, the expiry of due blocks apart, exactly when it
raises in the expiry sweep if at all: a line of the sweep cannot be written, or no block is
granted behind it, or the deadline of the block is a date and both of its lines are written. -/
theorem failed_request_changes_nothing_iff (fw : Option (FirewallAdapter Φ Ω))
    (h : LoggedHost Ω) (ip : String) (duration : ℤ) (s : LoggedBlocker Φ) :
    (FailsCleanly fw h s (tempBlock fw h ip duration) ∧
        FailsCleanly fw h s (manualBlock fw h ip duration)) ↔
      (SweepWritten fw h s → AutoBlocker.Enforceable fw h.host ip s.blocker →
        GrantWritten fw h ip duration s) := by
  have hiff := failsCleanly_tempBlock_iff fw h ip duration s
  exact ⟨fun hboth => hiff.mp hboth.1, fun hall => ⟨hiff.mpr hall, hiff.mpr hall⟩⟩

/-- A host on which the clock stands, every firewall command runs, and the record of a block
granted is written as said. -/
def loggedHost (record : Writing) : LoggedHost CommandOutcomes :=
  let writes : LogWrites := ⟨.done, ⟨62135597800000000, by decide⟩, .working,
    ⟨62135597800000000, by decide⟩⟩
  ⟨.frozen 1000 .allRun lt_maxSeconds_1000, fun _ => writes, { writes with record := record }⟩

/-- A blocker whose files do not exist yet. -/
def unusedBlocker : LoggedBlocker Chain :=
  .init [] none (.init none none none none fun _ => none) none

theorem not_failsCleanly_of_counted {fw : Option (FirewallAdapter Chain CommandOutcomes)}
    {h : LoggedHost CommandOutcomes}
    {request : Effect PyError (LoggedBlocker Chain) (Bool × String)} {e : PyError} {ip : String}
    (hraises : (request unusedBlocker).1 = .error e)
    (hcounts : (request unusedBlocker).2.blocker.blockCounts.get? ip = some 1) :
    ¬ FailsCleanly fw h unusedBlocker request := by
  intro hclean
  rw [(hclean e hraises).blockCounts] at hcounts
  cases hcounts

/-- A block for 10^12 seconds on working files, and one for five minutes whose record cannot be
written: the call raises, and the rule, the deadline, the time and the count of the block
stay. -/
theorem failed_block_leaves_rule :
    let leaves (record : Writing) (duration : ℤ) (e : PyError) (until_ : Time) :=
      let request := manualBlock (some linuxAdapter) (loggedHost record) "198.51.100.7" duration
      let left := (request unusedBlocker).2.blocker
      (request unusedBlocker).1 = .error e ∧ left.firewall = [⟨"198.51.100.7", true⟩] ∧
        left.blockedUntil.get? "198.51.100.7" = some until_ ∧
        left.lastBlockTime.get? "198.51.100.7" = some 1000 ∧
        left.blockCounts.get? "198.51.100.7" = some 1 ∧
        ¬ FailsCleanly (some linuxAdapter) (loggedHost record) unusedBlocker request
    leaves .done (10 ^ 12) .valueError 1000000001000 ∧ leaves .refused 300 .osError 1300 := by
  intro leaves
  constructor
  · have hraises : (manualBlock (some linuxAdapter) (loggedHost .done) "198.51.100.7" (10 ^ 12)
        unusedBlocker).1 = .error .valueError := by decide +kernel
    have hcounts : (manualBlock (some linuxAdapter) (loggedHost .done) "198.51.100.7" (10 ^ 12)
        unusedBlocker).2.blocker.blockCounts.get? "198.51.100.7" = some 1 := by decide +kernel
    exact ⟨hraises, by decide +kernel, by decide +kernel, by decide +kernel, hcounts,
      not_failsCleanly_of_counted hraises hcounts⟩
  · have hraises : (manualBlock (some linuxAdapter) (loggedHost .refused) "198.51.100.7" 300
        unusedBlocker).1 = .error .osError := by decide +kernel
    have hcounts : (manualBlock (some linuxAdapter) (loggedHost .refused) "198.51.100.7" 300
        unusedBlocker).2.blocker.blockCounts.get? "198.51.100.7" = some 1 := by decide +kernel
    exact ⟨hraises, by decide +kernel, by decide +kernel, by decide +kernel, hcounts,
      not_failsCleanly_of_counted hraises hcounts⟩

end LoggedBlocker

end SmartIDS.ResponseEngine
