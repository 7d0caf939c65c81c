import SmartIDS.ResponseEngine.FirewallLog
set_option autoImplicit false

/-!
# ResponseEngine: the ledger of blocks against the firewall's history

The blocker keeps three maps, written on different branches of its operations.
Over every run whose clock does not go back and whose deadlines are dates they
agree with each other and with the requests the firewall has seen.
-/

namespace SmartIDS.ResponseEngine

open SmartIDS.Foundation SmartIDS.PacketCapture SmartIDS.Python

namespace AutoBlocker

variable {Φ Ω : Type}

/-- The number of successful blocks of an address. -/
def blocksOf (log : List FirewallCall) (ip : String) : ℕ := log.countP fun c => c.Blocks ip

/-- The maps agree with each other and with the log; no entry is later than `t`. -/
structure Books (t : Time) (b : AutoBlocker (Φ × List FirewallCall)) : Prop where
  keys : ∀ ip, ip ∈ b.blockedUntil.keys → ip ∈ b.lastBlockTime.keys
  dated : ∀ ip last, b.lastBlockTime.get? ip = some last →
    isValidRoutableIp ip = true ∧ last ≤ t ∧
      ∃ until_, b.blockedUntil.get? ip = some until_ ∧ last + 1 ≤ until_
  counts : ∀ ip, (b.blockCounts.get? ip).getD 0 = blocksOf b.log ip
  asked : ∀ c ∈ b.log, c.request = .block → isValidRoutableIp c.ip = true
  standing : ∀ ip s, Standing b.log ip s → ∃ last, b.lastBlockTime.get? ip = some last ∧ s ≤ last
  cooled : Cooled blockCooldownSeconds b.log

theorem books_init (firewall : Φ) (t : Time) : Books t (init (firewall, [])) where
  keys ip hip := absurd hip List.not_mem_nil
  dated ip last hlast := by cases hlast
  counts ip := rfl
  asked c hc := absurd hc List.not_mem_nil
  standing ip s hs := absurd hs (not_standing_nil ip s)
  cooled := cooled_nil _

section step

variable {t : Time} {b b' : AutoBlocker (Φ × List FirewallCall)}

theorem Books.mono {t' : Time} (h : Books t b) (hle : t ≤ t') : Books t' b where
  keys := h.keys
  dated ip last hlast := by
    obtain ⟨hip, hpast, huntil⟩ := h.dated ip last hlast
    exact ⟨hip, hpast.trans hle, huntil⟩
  counts := h.counts
  asked := h.asked
  standing := h.standing
  cooled := h.cooled

theorem blocksOf_concat (log : List FirewallCall) (c : FirewallCall) (ip : String) :
    blocksOf (log ++ [c]) ip = blocksOf log ip + if c.Blocks ip then 1 else 0 := by
  rw [blocksOf, List.countP_append, List.countP_singleton]
  rcases em (c.Blocks ip) with hc | hc <;> simp [hc, blocksOf]

theorem asked_concat {log : List FirewallCall} {c : FirewallCall}
    (h : ∀ d ∈ log, d.request = .block → isValidRoutableIp d.ip = true)
    (hc : c.request = .block → isValidRoutableIp c.ip = true) :
    ∀ d ∈ log ++ [c], d.request = .block → isValidRoutableIp d.ip = true := by
  intro d hd
  rcases List.mem_append.mp hd with hd | hd
  · exact h d hd
  · rw [List.mem_singleton.mp hd]
    exact hc

/-- An unblock attempt, after which the ledger keeps or drops the address. -/
theorem Books.unblock (h : Books t b) {ip : String} {ok : Bool} {s : Time}
    (hlog : b'.log = b.log ++ [⟨.unblock, ip, ok, s⟩]) (hcounts : b'.blockCounts = b.blockCounts)
    (hledger : (b'.blockedUntil = b.blockedUntil.erase ip ∧
        b'.lastBlockTime = b.lastBlockTime.erase ip) ∨
      (b'.blockedUntil = b.blockedUntil ∧ b'.lastBlockTime = b.lastBlockTime)) : Books t b' := by
  have hnot : ∀ j, ¬ (⟨.unblock, ip, ok, s⟩ : FirewallCall).Blocks j := by
    intro j hblocks
    cases hblocks.1
  have hkept : ∀ j, j ≠ ip → b'.lastBlockTime.get? j = b.lastBlockTime.get? j := by
    intro j hne
    rcases hledger with ⟨-, hlast⟩ | ⟨-, hlast⟩
    · rw [hlast, Dict.get?_erase_of_ne _ hne]
    · rw [hlast]
  constructor
  · rcases hledger with ⟨huntil, hlast⟩ | ⟨huntil, hlast⟩
    · rw [huntil, hlast]
      intro j hj
      obtain ⟨hj, hne⟩ := (Dict.mem_keys_erase _ _ _).mp hj
      exact (Dict.mem_keys_erase _ _ _).mpr ⟨h.keys j hj, hne⟩
    · rw [huntil, hlast]
      exact h.keys
  · rcases hledger with ⟨huntil, hlast⟩ | ⟨huntil, hlast⟩
    · rw [huntil, hlast]
      intro j last hj
      have hne : j ≠ ip := by
        rintro rfl
        rw [Dict.get?_erase_self] at hj
        cases hj
      rw [Dict.get?_erase_of_ne _ hne] at hj ⊢
      exact h.dated j last hj
    · rw [huntil, hlast]
      exact h.dated
  · intro j
    rw [hcounts, hlog, blocksOf_concat, if_neg (hnot j)]
    exact h.counts j
  · rw [hlog]
    exact asked_concat h.asked fun hrequest => by cases hrequest
  · rw [hlog]
    intro j s' hstanding
    rcases standing_concat hstanding with ⟨hblocks, -⟩ | ⟨hold, hother⟩
    · exact absurd hblocks (hnot j)
    · have hne : j ≠ ip := by
        rintro rfl
        exact hother ⟨rfl, rfl⟩
      rw [hkept j hne]
      exact h.standing j s' hold
  · rw [hlog]
    exact h.cooled.concat fun j s' hblocks => absurd hblocks (hnot j)

/-- A block that is granted at `now`: the firewall already has the rule, or it has
been asked for one and has added it. -/
theorem Books.grant (h : Books t b) {ip : String} {now until_ : Time} (hle : t ≤ now)
    (hip : isValidRoutableIp ip = true) (hcool : b.coolingDown now ip = false)
    (hspaced : now + 1 ≤ until_) (hlast : b'.lastBlockTime = b.lastBlockTime.set ip now)
    (huntil : b'.blockedUntil = b.blockedUntil.set ip until_)
    (hasked : (b'.log = b.log ∧ b'.blockCounts = b.blockCounts) ∨
      (b'.log = b.log ++ [⟨.block, ip, true, now⟩] ∧
        b'.blockCounts = b.blockCounts.set ip ((b.blockCounts.get? ip).getD 0 + 1))) :
    Books now b' := by
  have hblocks : ∀ j, (⟨.block, ip, true, now⟩ : FirewallCall).Blocks j ↔ j = ip := by
    intro j
    exact ⟨fun hj => hj.2.1.symm, fun hj => ⟨rfl, hj.symm, rfl⟩⟩
  have hold : ∀ j s, Standing b.log j s → ∃ last, b'.lastBlockTime.get? j = some last ∧ s ≤ last := by
    intro j s hstanding
    obtain ⟨last, hlast', hs⟩ := h.standing j s hstanding
    rw [hlast, Dict.get?_set]
    rcases eq_or_ne j ip with rfl | hne
    · rw [if_pos rfl]
      exact ⟨now, rfl, hs.trans ((h.dated j last hlast').2.1.trans hle)⟩
    · rw [if_neg hne]
      exact ⟨last, hlast', hs⟩
  constructor
  · rw [hlast, huntil]
    intro j hj
    rw [Dict.mem_keys_set] at hj ⊢
    exact hj.imp_right (h.keys j)
  · rw [hlast, huntil]
    intro j last hj
    rw [Dict.get?_set] at hj ⊢
    rcases eq_or_ne j ip with rfl | hne
    · rw [if_pos rfl, Option.some.injEq] at hj
      rw [if_pos rfl, ← hj]
      exact ⟨hip, le_refl _, until_, rfl, hspaced⟩
    · rw [if_neg hne] at hj ⊢
      obtain ⟨hvalid, hpast, hdeadline⟩ := h.dated j last hj
      exact ⟨hvalid, hpast.trans hle, hdeadline⟩
  · intro j
    rcases hasked with ⟨hlog, hcounts⟩ | ⟨hlog, hcounts⟩
    · rw [hlog, hcounts]
      exact h.counts j
    · rw [hlog, hcounts, blocksOf_concat, Dict.get?_set]
      rcases eq_or_ne j ip with rfl | hne
      · rw [if_pos rfl, if_pos ((hblocks j).mpr rfl), Option.getD_some, h.counts]
      · rw [if_neg hne, if_neg fun hj => hne ((hblocks j).mp hj), Nat.add_zero]
        exact h.counts j
  · rcases hasked with ⟨hlog, -⟩ | ⟨hlog, -⟩
    · rw [hlog]
      exact h.asked
    · rw [hlog]
      exact asked_concat h.asked fun _ => hip
  · rcases hasked with ⟨hlog, -⟩ | ⟨hlog, -⟩
    · rw [hlog]
      exact hold
    · rw [hlog]
      intro j s hstanding
      rcases standing_concat hstanding with ⟨hj, hs⟩ | ⟨hstood, -⟩
      · rw [(hblocks j).mp hj, hlast, Dict.get?_set_self]
        exact ⟨now, rfl, hs.ge⟩
      · exact hold j s hstood
  · rcases hasked with ⟨hlog, -⟩ | ⟨hlog, -⟩
    · rw [hlog]
      exact h.cooled
    · rw [hlog]
      refine h.cooled.concat fun j s hj hstanding => ?_
      -- the block would have been refused if one stood for less than the cooldown
      rw [(hblocks j).mp hj] at hstanding
      obtain ⟨last, hlast', hs⟩ := h.standing ip s hstanding
      unfold coolingDown at hcool
      rw [hlast', decide_eq_false_iff_not, not_lt] at hcool
      exact hcool.trans (sub_le_sub_left hs now)

/-- A block the firewall refuses. -/
theorem Books.refuse (h : Books t b) {ip : String} {s : Time} (hip : isValidRoutableIp ip = true)
    (hlog : b'.log = b.log ++ [⟨.block, ip, false, s⟩]) (hcounts : b'.blockCounts = b.blockCounts)
    (hlast : b'.lastBlockTime = b.lastBlockTime) (huntil : b'.blockedUntil = b.blockedUntil) :
    Books t b' := by
  have hnot : ∀ j, ¬ (⟨.block, ip, false, s⟩ : FirewallCall).Blocks j := by
    intro j hblocks
    cases hblocks.2.2
  constructor
  · rw [hlast, huntil]
    exact h.keys
  · rw [hlast, huntil]
    exact h.dated
  · intro j
    rw [hlog, hcounts, blocksOf_concat, if_neg (hnot j)]
    exact h.counts j
  · rw [hlog]
    exact asked_concat h.asked fun _ => hip
  · rw [hlog, hlast]
    intro j s' hstanding
    rcases standing_concat hstanding with ⟨hblocks, -⟩ | ⟨hold, -⟩
    · exact absurd hblocks (hnot j)
    · exact h.standing j s' hold
  · rw [hlog]
    exact h.cooled.concat fun j s' hblocks => absurd hblocks (hnot j)

end step

/-! ## One operation -/

section operation

variable {t : Time} {b : AutoBlocker (Φ × List FirewallCall)}

/-- An unblock request is written down with its answer. -/
theorem log_unblockIp (fw : FirewallAdapter Φ Ω) (h : Host Ω)
    (b : AutoBlocker (Φ × List FirewallCall)) (ip : String) :
    ((recording fw).unblockIp h.dated.outcomes ip b.firewall).2.2 =
      b.log ++ [⟨.unblock, ip, (fw.unblockIp h.outcomes ip b.firewall.1).1.1, h.clock.now⟩] := rfl

theorem Books.foldl_expireOne (fw : FirewallAdapter Φ Ω) (h : Host Ω) (ips : List String)
    (hbooks : Books t b) : Books t (ips.foldl (expireOne (recording fw) h.dated) b) := by
  induction ips generalizing b with
  | nil => exact hbooks
  | cons ip ips ih =>
    refine ih ?_
    exact hbooks.unblock (log_unblockIp fw h b ip) rfl
      (Or.inl ⟨rfl, rfl⟩)

theorem Books.expireBlocks (fw : FirewallAdapter Φ Ω) (h : Host Ω) (hbooks : Books t b) :
    Books t (expireBlocks (some (recording fw)) h.dated b) :=
  hbooks.foldl_expireOne fw h _

theorem Books.enforce (fw : FirewallAdapter Φ Ω) {h : Host Ω} {ip : String} {duration : ℤ}
    (hbooks : Books t b) (hle : t ≤ h.clock.now) (hip : isValidRoutableIp ip = true)
    (hcool : b.coolingDown h.clock.now ip = false) (hrec : Recordable h duration) :
    Books h.clock.now (enforce (recording fw) h.dated ip duration b).2 := by
  have hspec := enforced (recording fw) h.dated ip duration b
  have hcounts := blockCounts_enforce (recording fw) h.dated ip b hrec.fitsDouble
  have hspaced : h.clock.now + 1 ≤ h.clock.now + ((max 1 duration : ℤ) : ℚ) := by
    have : ((1 : ℤ) : ℚ) ≤ ((max 1 duration : ℤ) : ℚ) := Int.cast_le.mpr (le_max_left 1 duration)
    rw [Int.cast_one] at this
    exact (add_le_add_iff_left _).mpr this
  have hlog := congrArg Prod.snd hspec.firewall
  have hlast := hspec.lastBlockTime
  have huntil := hspec.blockedUntil
  unfold firewallAfter at hlog
  unfold accepts at hlast huntil
  cases hblocked : (recording fw).isBlocked h.dated.outcomes ip b.firewall with
  | true =>
    rw [hblocked, if_pos rfl] at hlog
    rw [hblocked, Bool.true_or, if_pos rfl] at hlast
    rw [hblocked, Bool.true_or, if_pos ⟨rfl, hrec.fitsDouble⟩] at huntil
    rw [hblocked, if_neg fun hboth => Bool.noConfusion hboth.1] at hcounts
    exact hbooks.grant hle hip hcool hspaced hlast huntil (Or.inl ⟨hlog, hcounts⟩)
  | false =>
    rw [hblocked, if_neg Bool.false_ne_true] at hlog
    have hentry : ((recording fw).blockIp h.dated.outcomes ip b.firewall).2.2 =
        b.log ++ [⟨.block, ip, ((recording fw).blockIp h.dated.outcomes ip b.firewall).1.1,
          h.clock.now⟩] := rfl
    rw [hentry] at hlog
    cases hok : ((recording fw).blockIp h.dated.outcomes ip b.firewall).1.1 with
    | true =>
      rw [hok] at hlog
      rw [hblocked, hok, Bool.or_true, if_pos rfl] at hlast
      rw [hblocked, hok, Bool.or_true, if_pos ⟨rfl, hrec.fitsDouble⟩] at huntil
      rw [if_pos ⟨hblocked, hok⟩] at hcounts
      exact hbooks.grant hle hip hcool hspaced hlast huntil (Or.inr ⟨hlog, hcounts⟩)
    | false =>
      rw [hok] at hlog
      rw [hblocked, hok, Bool.or_false, if_neg Bool.false_ne_true] at hlast
      rw [hblocked, hok, Bool.or_false, if_neg fun hboth => Bool.noConfusion hboth.1] at huntil
      rw [hok, if_neg fun hboth => Bool.noConfusion hboth.2] at hcounts
      exact (hbooks.refuse hip hlog hcounts hlast huntil).mono hle

theorem Books.tempBlock (fw : FirewallAdapter Φ Ω) {h : Host Ω} (ip : String) {duration : ℤ}
    (hbooks : Books t b) (hle : t ≤ h.clock.now) (hrec : Recordable h duration) :
    Books h.clock.now (tempBlock (some (recording fw)) h.dated ip duration b).2 := by
  cases hip : isValidRoutableIp ip with
  | false =>
    rw [tempBlock_of_invalid _ _ _ _ hip]
    exact hbooks.mono hle
  | true =>
    have hswept := hbooks.expireBlocks fw h
    rw [tempBlock_of_valid _ _ _ _ hip]
    split_ifs with hcool
    · exact hswept.mono hle
    · exact hswept.enforce fw hle hip (Bool.not_eq_true _ ▸ hcool) hrec

theorem Books.manualUnblock (fw : FirewallAdapter Φ Ω) (h : Host Ω) (ip : String)
    (hbooks : Books t b) : Books t (manualUnblock (some (recording fw)) h.dated ip b).2 := by
  unfold AutoBlocker.manualUnblock
  cases isValidRoutableIp ip with
  | false => exact hbooks
  | true =>
    simp only [if_true]
    cases ((recording fw).unblockIp h.dated.outcomes ip b.firewall).1.1 with
    | true =>
      rw [if_pos rfl]
      exact hbooks.unblock (log_unblockIp fw h b ip) rfl
        (Or.inl ⟨rfl, rfl⟩)
    | false =>
      rw [if_neg Bool.false_ne_true]
      exact hbooks.unblock (log_unblockIp fw h b ip) rfl
        (Or.inr ⟨rfl, rfl⟩)

/-- The deadline a block request would write down is a date. -/
def Operation.Dateable : Operation Ω → Prop
  | .tempBlock h _ duration | .manualBlock h _ duration => Recordable h duration
  | .manualUnblock _ _ | .expireBlocks _ => True

theorem Books.step (fw : FirewallAdapter Φ Ω) {op : Operation Ω} (hbooks : Books t b)
    (hle : t ≤ op.host.clock.now) (hdate : op.Dateable) :
    Books op.host.clock.now ((machine (some (recording fw))).step b op.dated).1 := by
  cases op with
  | tempBlock h ip duration => exact hbooks.tempBlock fw ip hle hdate
  | manualBlock h ip duration => exact hbooks.tempBlock fw ip hle hdate
  | manualUnblock h ip => exact (hbooks.manualUnblock fw h ip).mono hle
  | expireBlocks h => exact (hbooks.expireBlocks fw h).mono hle

end operation

/-! ## Runs -/

/-- The books after a run, at any time that none of its operations is later than. -/
theorem books_recorded (fw : FirewallAdapter Φ Ω) (firewall : Φ) (ops : List (Operation Ω))
    (hclock : Nondecreasing ops) (hdates : ∀ op ∈ ops, op.Dateable) (t : Time)
    (hlate : ∀ op ∈ ops, op.host.clock.now ≤ t) : Books t (recorded (some fw) firewall ops) := by
  induction ops using List.reverseRecOn generalizing t with
  | nil => exact books_init firewall t
  | append_singleton ops op ih =>
    obtain ⟨hbefore, -, hlast⟩ := List.pairwise_append.mp hclock
    have hprevious : ∀ o ∈ ops, o.host.clock.now ≤ op.host.clock.now := by
      intro o ho
      have horder := hlast o ho op (List.mem_singleton_self op)
      calc o.host.clock.now ≤ o.host.clock.recordTime := o.host.clock.now_le_recordTime
        _ ≤ o.host.clock.publishTime := o.host.clock.recordTime_le_publishTime
        _ ≤ op.host.clock.expireTime := horder
        _ ≤ op.host.clock.now := op.host.clock.expireTime_le_now
    have hbooks := ih hbefore (fun o ho => hdates o (List.mem_append_left _ ho))
      op.host.clock.now hprevious
    have hnext := hbooks.step fw le_rfl (hdates op (by simp))
    unfold recorded
    rw [List.map_append, List.map_singleton, Machine.exec_concat]
    exact hnext.mono (hlate op (by simp))

/-- Without an adapter nothing is ever blocked. -/
theorem recorded_none (firewall : Φ) (ops : List (Operation Ω)) :
    recorded none firewall ops = init (firewall, []) := by
  unfold recorded
  induction ops using List.reverseRecOn with
  | nil => rfl
  | append_singleton ops op ih =>
    rw [List.map_append, List.map_singleton, Machine.exec_concat, Option.map_none] at *
    rw [ih]
    cases op <;> rfl

/-- The requests of a sweep: one unblock for each address, in order. -/
theorem log_foldl_expireOne (fw : FirewallAdapter Φ Ω) (h : Host Ω) (ips : List String)
    (b : AutoBlocker (Φ × List FirewallCall)) :
    ∃ calls, (ips.foldl (expireOne (recording fw) h.dated) b).log = b.log ++ calls ∧
      (∀ c ∈ calls, c.request = .unblock) ∧ calls.map (·.ip) = ips := by
  induction ips generalizing b with
  | nil => exact ⟨[], (List.append_nil _).symm, fun c hc => absurd hc List.not_mem_nil, rfl⟩
  | cons ip ips ih =>
    obtain ⟨calls, hlog, hunblock, hips⟩ := ih (expireOne (recording fw) h.dated b ip)
    let call : FirewallCall :=
      ⟨.unblock, ip, (fw.unblockIp h.outcomes ip b.firewall.1).1.1, h.clock.now⟩
    have hfirst : (expireOne (recording fw) h.dated b ip).log = b.log ++ [call] := rfl
    refine ⟨call :: calls, ?_, ?_, ?_⟩
    · rw [List.foldl_cons, hlog, hfirst, List.append_assoc]
      rfl
    · intro c hc
      rcases List.mem_cons.mp hc with rfl | hc
      · rfl
      · exact hunblock c hc
    · rw [List.map_cons, hips]

/-- What the books of a blocker say, together with the requests of a sweep. -/
structure LedgerInvariant (fw : Option (FirewallAdapter Φ Ω))
    (b : AutoBlocker (Φ × List FirewallCall)) : Prop where
  sameKeys : ∀ ip, ip ∈ b.blockedUntil.keys ↔ ip ∈ b.lastBlockTime.keys
  deadlines : ∀ ip last until_, b.lastBlockTime.get? ip = some last →
    b.blockedUntil.get? ip = some until_ → last + 1 ≤ until_
  validKeys : ∀ ip ∈ b.blockedUntil.keys, isValidRoutableIp ip = true
  /-- a sweep makes one request for each address whose deadline has passed -/
  sweeps : ∀ h : Host Ω, ∃ calls,
    (expireBlocks (fw.map recording) h.dated b).log = b.log ++ calls ∧
      (∀ c ∈ calls, c.request = .unblock) ∧ (calls.map (·.ip)).Nodup ∧
      ∀ ip, ip ∈ calls.map (·.ip) ↔
        ∃ until_, b.blockedUntil.get? ip = some until_ ∧ until_ ≤ h.clock.expireTime
  validBlocks : ∀ c ∈ b.log, c.request = .block → isValidRoutableIp c.ip = true
  cooled : Cooled blockCooldownSeconds b.log
  counts : ∀ ip, (b.blockCounts.get? ip).getD 0 = blocksOf b.log ip

theorem Books.ledgerInvariant (fw : FirewallAdapter Φ Ω) {t : Time}
    {b : AutoBlocker (Φ × List FirewallCall)} (h : Books t b) : LedgerInvariant (some fw) b where
  sameKeys ip := by
    refine ⟨h.keys ip, fun hip => ?_⟩
    obtain ⟨last, hlast⟩ := Dict.exists_get?_of_mem hip
    obtain ⟨-, -, until_, huntil, -⟩ := h.dated ip last hlast
    exact Dict.mem_keys_of_get? huntil
  deadlines ip last until_ hlast huntil := by
    obtain ⟨-, -, until', huntil', hle⟩ := h.dated ip last hlast
    rw [huntil, Option.some.injEq] at huntil'
    rw [huntil']
    exact hle
  validKeys ip hip := by
    obtain ⟨last, hlast⟩ := Dict.exists_get?_of_mem (h.keys ip hip)
    exact (h.dated ip last hlast).1
  sweeps host := by
    obtain ⟨calls, hlog, hunblock, hips⟩ :=
      log_foldl_expireOne fw host (b.expired host.clock.expireTime) b
    refine ⟨calls, hlog, hunblock, ?_, ?_⟩
    · rw [hips]
      exact nodup_expired b _
    · intro ip
      rw [hips]
      exact mem_expired_iff b _ ip
  validBlocks := h.asked
  cooled := h.cooled
  counts := h.counts

/-- A blocker without an adapter has an empty ledger. -/
theorem ledgerInvariant_init (firewall : Φ) :
    LedgerInvariant (none : Option (FirewallAdapter Φ Ω)) (init (firewall, [])) where
  sameKeys ip := Iff.rfl
  deadlines ip last until_ hlast := by cases hlast
  validKeys ip hip := absurd hip List.not_mem_nil
  sweeps host := by
    refine ⟨[], rfl, fun c hc => absurd hc List.not_mem_nil, List.nodup_nil, fun ip => ?_⟩
    constructor
    · intro hip
      cases hip
    · rintro ⟨until_, huntil, -⟩
      cases huntil
  validBlocks c hc := absurd hc List.not_mem_nil
  cooled := cooled_nil _
  counts ip := rfl

/-- The ledger invariant, for every adapter, every outcome of its requests and
every run whose clock does not go back and whose deadlines are dates. -/
theorem block_ledger_invariant (fw : Option (FirewallAdapter Φ Ω)) (firewall : Φ)
    (ops : List (Operation Ω)) (hclock : Nondecreasing ops) (hdates : ∀ op ∈ ops, op.Dateable) :
    LedgerInvariant fw (recorded fw firewall ops) := by
  cases fw with
  | none =>
    rw [recorded_none]
    exact ledgerInvariant_init firewall
  | some fw =>
    -- some time that no operation is later than
    have hlate : ∃ t, ∀ op ∈ ops, op.host.clock.now ≤ t := by
      induction ops with
      | nil => exact ⟨0, fun op hop => absurd hop List.not_mem_nil⟩
      | cons op ops ih =>
        obtain ⟨t, ht⟩ := ih (List.pairwise_cons.mp hclock).2
          fun o ho => hdates o (List.mem_cons_of_mem _ ho)
        refine ⟨max op.host.clock.now t, fun o ho => ?_⟩
        rcases List.mem_cons.mp ho with rfl | ho
        · exact le_max_left _ _
        · exact (ht o ho).trans (le_max_right _ _)
    obtain ⟨t, ht⟩ := hlate
    exact (books_recorded fw firewall ops hclock hdates t ht).ledgerInvariant fw

/-- A block of five seconds and another ten seconds later, when the first has
been lifted. -/
def quickBlocks : List (Operation CommandOutcomes) :=
  [.tempBlock (Host.frozen 1000 .allRun lt_maxSeconds_1000) "198.51.100.7" 5,
    .tempBlock (Host.frozen 1010 .allRun (by decide)) "198.51.100.7" 5]

/-- Both blocks succeed within the cooldown, and the log has the unblock between them. -/
theorem block_ledger_invariant_quickBlocks :
    Cooled blockCooldownSeconds (recorded (some linuxAdapter) [] quickBlocks).log ∧
      blocksOf (recorded (some linuxAdapter) [] quickBlocks).log "198.51.100.7" = 2 := by
  have hinv := block_ledger_invariant (some linuxAdapter) [] quickBlocks
    (by unfold Nondecreasing; decide +kernel)
    (by
      intro op hop
      simp only [quickBlocks, List.mem_cons, List.not_mem_nil, or_false] at hop
      rcases hop with rfl | rfl
      · exact recordable_of_day _ (by decide)
      · exact recordable_of_day _ (by decide))
  refine ⟨hinv.cooled, ?_⟩
  rw [← hinv.counts]
  decide +kernel

end AutoBlocker

end SmartIDS.ResponseEngine
