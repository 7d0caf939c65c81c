import SmartIDS.ResponseEngine.BlockLedger
import SmartIDS.ResponseEngine.WindowsFirewall
set_option autoImplicit false

/-!
# ResponseEngine: the same blocker over two firewalls

The Linux adapter keeps its blocks in a chain, the Windows adapter as rules under names of
its own, through a `netsh` that is relied on as documented.  A blocker over either of them
gives the same answers and keeps the same books, as long as the queries of the adapters run;
what adds and removes rules may fail at any time, on both platforms alike.
-/

namespace SmartIDS.ResponseEngine

open SmartIDS.Foundation SmartIDS.PacketCapture SmartIDS.Python

/-! ## Adapters that are not told apart -/

/-- From related firewalls the adapters give the same answers and leave related firewalls. -/
structure Interchangeable {Φ Φ' Ω : Type} (fw : FirewallAdapter Φ Ω) (fw' : FirewallAdapter Φ' Ω)
    (G : Ω → Prop) (R : Φ → Φ' → Prop) : Prop where
  blockIp : ∀ {o φ φ'} (ip : String), G o → R φ φ' →
    (fw.blockIp o ip φ).1 = (fw'.blockIp o ip φ').1 ∧
      R (fw.blockIp o ip φ).2 (fw'.blockIp o ip φ').2
  unblockIp : ∀ {o φ φ'} (ip : String), G o → R φ φ' →
    (fw.unblockIp o ip φ).1 = (fw'.unblockIp o ip φ').1 ∧
      R (fw.unblockIp o ip φ).2 (fw'.unblockIp o ip φ').2
  isBlocked : ∀ {o φ φ'} (ip : String), G o → R φ φ' →
    fw.isBlocked o ip φ = fw'.isBlocked o ip φ'

/-- The adapter with its outcomes among others. -/
def FirewallAdapter.comap {Φ Ω Ω' : Type} (outcomes : Ω' → Ω) (fw : FirewallAdapter Φ Ω) :
    FirewallAdapter Φ Ω' where
  blockIp o := fw.blockIp (outcomes o)
  unblockIp o := fw.unblockIp (outcomes o)
  isBlocked o := fw.isBlocked (outcomes o)

namespace AutoBlocker

variable {Φ Φ' Ω : Type}

/-- The same books over another firewall. -/
def withFirewall (firewall : Φ') (b : AutoBlocker Φ) : AutoBlocker Φ' where
  firewall := firewall
  lastBlockTime := b.lastBlockTime
  blockedUntil := b.blockedUntil
  blockCounts := b.blockCounts
  watchlistedIps := b.watchlistedIps
  records := b.records
  activity := b.activity

/-- The blockers differ in their firewalls only, and these are related. -/
def Alike (R : Φ → Φ' → Prop) (b : AutoBlocker Φ) (b' : AutoBlocker Φ') : Prop :=
  ∃ firewall, R b.firewall firewall ∧ b' = b.withFirewall firewall

section alike

variable {R : Φ → Φ' → Prop} {b : AutoBlocker Φ} {b' : AutoBlocker Φ'} {h : Host Ω}

/-! ### What does not ask the firewall -/

theorem agree_record (halike : Alike R b b') (status ip : String) (duration : ℤ) :
    Effect.Agree (Alike R) (record h status ip duration) (record h status ip duration) b b' := by
  refine .bind (.ofExcept halike _) fun until_ s t hst => .modify ?_
  obtain ⟨firewall, hR, rfl⟩ := hst
  exact ⟨firewall, hR, rfl⟩

theorem agree_grant (halike : Alike R b b') (ip : String) (duration : ℤ) :
    Effect.Agree (Alike R) (grant h ip duration) (grant h ip duration) b b' := by
  obtain ⟨firewall, hR, rfl⟩ := halike
  refine .bind (.modify ⟨firewall, hR, rfl⟩) fun _ s t hst => ?_
  refine .bind (.ofExcept hst _) fun until_ s t hst => .modify ?_
  obtain ⟨firewall, hR, rfl⟩ := hst
  exact ⟨firewall, hR, rfl⟩

theorem agree_counted (halike : Alike R b b') (ip : String) :
    Effect.Agree (ε := PyError) (Alike R)
      (Effect.modify fun b : AutoBlocker Φ =>
        { b with blockCounts := b.blockCounts.set ip ((b.blockCounts.get? ip).getD 0 + 1) })
      (Effect.modify fun b : AutoBlocker Φ' =>
        { b with blockCounts := b.blockCounts.set ip ((b.blockCounts.get? ip).getD 0 + 1) })
      b b' := by
  obtain ⟨firewall, hR, rfl⟩ := halike
  exact .modify ⟨firewall, hR, rfl⟩

/-- The end of a request that was granted. -/
theorem agree_written (halike : Alike R b b') (answer : Bool × String)
    (ip attackType action : String) (timestamp : Time) :
    Effect.Agree (Alike R)
      (do
        Effect.modify fun b => recordDetectionActivity b ip attackType action timestamp
        return answer : Effect PyError (AutoBlocker Φ) (Bool × String))
      (do
        Effect.modify fun b => recordDetectionActivity b ip attackType action timestamp
        return answer) b b' := by
  obtain ⟨firewall, hR, rfl⟩ := halike
  exact .bind (.modify ⟨firewall, hR, rfl⟩) fun _ s t hst => .pure hst _

/-! ### What does -/

variable {fw : FirewallAdapter Φ Ω} {fw' : FirewallAdapter Φ' Ω} {G : Ω → Prop}

theorem alike_expireOne (hfw : Interchangeable fw fw' G R) (hG : G h.outcomes)
    (halike : Alike R b b') (ip : String) :
    Alike R (expireOne fw h b ip) (expireOne fw' h b' ip) := by
  obtain ⟨firewall, hR, rfl⟩ := halike
  obtain ⟨hanswer, hleft⟩ := hfw.unblockIp ip hG hR
  have hsame : fw'.unblockIp h.outcomes ip (b.withFirewall firewall).firewall =
      ((fw.unblockIp h.outcomes ip b.firewall).1, (fw'.unblockIp h.outcomes ip firewall).2) :=
    Prod.ext hanswer.symm rfl
  refine ⟨_, hleft, ?_⟩
  unfold expireOne
  rw [hsame]
  rfl

theorem alike_expireBlocks (hfw : Interchangeable fw fw' G R) (hG : G h.outcomes)
    (halike : Alike R b b') :
    Alike R (expireBlocks (some fw) h b) (expireBlocks (some fw') h b') := by
  have hexpired : b'.expired h.clock.expireTime = b.expired h.clock.expireTime := by
    obtain ⟨firewall, -, rfl⟩ := halike
    rfl
  unfold expireBlocks
  rw [hexpired]
  generalize b.expired h.clock.expireTime = ips
  induction ips generalizing b b' with
  | nil => exact halike
  | cons ip ips ih =>
    have hnext := alike_expireOne hfw hG halike ip
    exact ih hnext (by obtain ⟨firewall, -, heq⟩ := hnext; rw [heq]; rfl)

theorem agree_enforce (hfw : Interchangeable fw fw' G R) (hG : G h.outcomes)
    (halike : Alike R b b') (ip : String) (duration : ℤ) :
    Effect.Agree (Alike R) (enforce fw h ip duration) (enforce fw' h ip duration) b b' := by
  obtain ⟨firewall, hR, rfl⟩ := halike
  unfold enforce
  refine .get_bind ?_
  have hblocked : fw'.isBlocked h.outcomes ip (b.withFirewall firewall).firewall =
      fw.isBlocked h.outcomes ip b.firewall := (hfw.isBlocked ip hG hR).symm
  obtain ⟨hanswer, hleft⟩ := hfw.blockIp ip hG hR
  have hanswer' : (fw'.blockIp h.outcomes ip (b.withFirewall firewall).firewall).1 =
      (fw.blockIp h.outcomes ip b.firewall).1 := hanswer.symm
  dsimp only
  rw [hblocked, hanswer']
  cases fw.isBlocked h.outcomes ip b.firewall with
  | true =>
    rw [if_pos rfl, if_pos rfl]
    refine .bind (agree_grant ⟨firewall, hR, rfl⟩ ip duration) fun _ s t hst => ?_
    refine .bind (agree_record hst "already_blocked" ip duration) fun _ s t hst => ?_
    exact agree_written hst _ ip _ _ _
  | false =>
    rw [if_neg Bool.false_ne_true, if_neg Bool.false_ne_true]
    refine .bind (.modify ⟨_, hleft, rfl⟩) fun _ s t hst => ?_
    cases (fw.blockIp h.outcomes ip b.firewall).1.1 with
    | true =>
      rw [if_pos rfl, if_pos rfl]
      refine .bind (agree_grant hst ip duration) fun _ s t hst => ?_
      refine .bind (agree_counted hst ip) fun _ s t hst => ?_
      refine .bind (agree_record hst _ ip duration) fun _ s t hst => ?_
      exact agree_written hst _ ip _ _ _
    | false =>
      rw [if_neg Bool.false_ne_true, if_neg Bool.false_ne_true]
      exact .pure hst _

theorem agree_tempBlock (hfw : Interchangeable fw fw' G R) (hG : G h.outcomes)
    (halike : Alike R b b') (ip : String) (duration : ℤ) :
    Effect.Agree (Alike R) (tempBlock (some fw) h ip duration) (tempBlock (some fw') h ip duration)
      b b' := by
  unfold tempBlock
  dsimp only
  split_ifs
  · refine .bind (.modify (alike_expireBlocks hfw hG halike)) fun _ s t hst => .get_bind ?_
    have hcooling : t.coolingDown h.clock.now ip = s.coolingDown h.clock.now ip := by
      obtain ⟨firewall, -, rfl⟩ := hst
      rfl
    rw [hcooling]
    cases s.coolingDown h.clock.now ip with
    | true => exact .pure hst _
    | false => exact agree_enforce hfw hG hst ip duration
  · exact .pure halike _

theorem alike_manualUnblock (hfw : Interchangeable fw fw' G R) (hG : G h.outcomes)
    (halike : Alike R b b') (ip : String) :
    (manualUnblock (some fw) h ip b).1 = (manualUnblock (some fw') h ip b').1 ∧
      Alike R (manualUnblock (some fw) h ip b).2 (manualUnblock (some fw') h ip b').2 := by
  obtain ⟨firewall, hR, rfl⟩ := halike
  obtain ⟨hanswer, hleft⟩ := hfw.unblockIp ip hG hR
  have hsame : fw'.unblockIp h.outcomes ip (b.withFirewall firewall).firewall =
      ((fw.unblockIp h.outcomes ip b.firewall).1, (fw'.unblockIp h.outcomes ip firewall).2) :=
    Prod.ext hanswer.symm rfl
  unfold manualUnblock
  simp only [hsame]
  split_ifs
  · exact ⟨rfl, _, hleft, rfl⟩
  · exact ⟨rfl, _, hleft, rfl⟩
  · exact ⟨rfl, firewall, hR, rfl⟩

/-- One operation. -/
theorem alike_step (hfw : Interchangeable fw fw' G R) (halike : Alike R b b') (op : Operation Ω)
    (hG : G op.host.outcomes) :
    Alike R ((machine (some fw)).step b op).1 ((machine (some fw')).step b' op).1 ∧
      ((machine (some fw)).step b op).2 = ((machine (some fw')).step b' op).2 := by
  cases op with
  | tempBlock h ip duration =>
    have h := agree_tempBlock hfw hG halike ip duration
    exact ⟨h.left, congrArg (Except.map some) h.result⟩
  | manualBlock h ip duration =>
    have h := agree_tempBlock hfw hG halike ip duration
    exact ⟨h.left, congrArg (Except.map some) h.result⟩
  | manualUnblock h ip =>
    obtain ⟨hanswer, hleft⟩ := alike_manualUnblock hfw hG halike ip
    exact ⟨hleft, congrArg (fun answer => Except.ok (some answer)) hanswer⟩
  | expireBlocks h => exact ⟨alike_expireBlocks hfw hG halike, rfl⟩

/-- Over a whole run the blockers cannot be told apart. -/
theorem alike_run (hfw : Interchangeable fw fw' G R) (halike : Alike R b b')
    {ops : List (Operation Ω)} (hG : ∀ op ∈ ops, G op.host.outcomes) :
    (machine (some fw)).trace b ops = (machine (some fw')).trace b' ops ∧
      Alike R ((machine (some fw)).exec b ops) ((machine (some fw')).exec b' ops) := by
  induction ops generalizing b b' with
  | nil => exact ⟨rfl, halike⟩
  | cons op ops ih =>
    rw [List.forall_mem_cons] at hG
    obtain ⟨hnext, hanswer⟩ := alike_step hfw halike op hG.1
    obtain ⟨htrace, hexec⟩ := ih hnext hG.2
    refine ⟨?_, hexec⟩
    rw [Machine.trace_cons, Machine.trace_cons, hanswer, htrace]

end alike

end AutoBlocker

/-! ## The chain and the rules -/

open WindowsFirewallAdapter

/-- The chain has one rule for each address that a rule of the Windows firewall is named
for, and that rule is about this address. -/
structure SameBlocks (c : Chain) (blocks : Set NamedRule) : Prop where
  atMostOne : ∀ ip, (c.rulesOf ip).length ≤ 1
  sameAddresses : ∀ ip, c.hasRule ip = true ↔ HasRule blocks ip
  remoteIp : ∀ r ∈ blocks, ∀ ip, r.name = ruleName ip → r.remoteIp = ip

namespace SameBlocks

variable {c : Chain} {blocks : Set NamedRule}

theorem add (h : SameBlocks c blocks) {ip : String} (hnone : c.hasRule ip = false) :
    SameBlocks (c ++ [⟨ip, true⟩]) (insert ⟨ruleName ip, ip⟩ blocks) where
  atMostOne := by
    intro j
    have hempty : c.rulesOf ip = [] := by
      rw [← not_ne_iff, ← Chain.hasRule_iff, hnone]
      exact Bool.false_ne_true
    have hold := h.atMostOne j
    unfold Chain.rulesOf at hold hempty ⊢
    rw [List.filter_append]
    rcases eq_or_ne ip j with rfl | hne
    · rw [hempty]
      simp
    · simpa [hne] using hold
  sameAddresses := by
    intro j
    have hold := h.sameAddresses j
    unfold Chain.hasRule HasRule at hold ⊢
    rw [List.any_append, Bool.or_eq_true, hold]
    simp [ruleName_injective.eq_iff, or_comm]
  remoteIp := by
    rintro r (rfl | hr) j hname
    · exact ruleName_injective hname
    · exact h.remoteIp r hr j hname

theorem rulesOf_delete (h : SameBlocks c blocks) (ip : String) :
    Chain.rulesOf (c.eraseP (·.source = ip)) ip = [] := by
  rw [Chain.rulesOf_eraseP_self, ← List.length_eq_zero_iff, List.length_tail]
  have hone := h.atMostOne ip
  omega

theorem delete (h : SameBlocks c blocks) (ip : String) :
    SameBlocks (c.eraseP (·.source = ip)) {r ∈ blocks | r.name ≠ ruleName ip} where
  atMostOne := by
    intro j
    rcases eq_or_ne j ip with rfl | hne
    · rw [h.rulesOf_delete]
      exact Nat.zero_le 1
    · rw [Chain.rulesOf_eraseP_of_ne c hne]
      exact h.atMostOne j
  sameAddresses := by
    intro j
    rcases eq_or_ne j ip with rfl | hne
    · have hnone : ¬ HasRule {r ∈ blocks | r.name ≠ ruleName j} j :=
        fun ⟨r, hr, hname⟩ => hr.2 hname
      rw [Chain.hasRule_iff, h.rulesOf_delete]
      exact iff_of_false (fun hne => hne rfl) hnone
    · have hkept : HasRule {r ∈ blocks | r.name ≠ ruleName ip} j ↔ HasRule blocks j := by
        constructor
        · rintro ⟨r, hr, hname⟩
          exact ⟨r, hr.1, hname⟩
        · rintro ⟨r, hr, hname⟩
          refine ⟨r, ⟨hr, fun hsame => hne ?_⟩, hname⟩
          exact ruleName_injective (hname.symm.trans hsame)
      rw [hkept, ← h.sameAddresses, Chain.hasRule_iff, Chain.hasRule_iff,
        Chain.rulesOf_eraseP_of_ne c hne]
  remoteIp := fun r hr => h.remoteIp r hr.1

end SameBlocks

variable {Φ : Type} (rules : Φ → Set NamedRule)

/-- A `show` for an address that has a rule runs and finds it. -/
def Finds (netsh : List String → Φ → Option CompletedProcess) : Prop :=
  ∀ (ip : String) (φ : Φ), HasRule (rules φ) ip →
    ∃ result, netsh (showCommand (ruleName ip)) φ = some result ∧ result.returncode = 0

/-- The outcomes of a call on the two platforms: the queries run, and a command that adds or
removes a rule succeeds on both or on neither. -/
structure SameOutcomes (o : CommandOutcomes) (o' : NetshOutcomes Φ) : Prop where
  queries : ∀ ip, o.check ip = true ∧ o.recheck ip = true
  check : Finds rules o'.check
  recheck : Finds rules o'.recheck
  add : ∀ (ip : String) (φ : Φ), (runNetsh o'.add (addCommand (ruleName ip) ip) φ).1 = o.append ip
  delete : ∀ (ip : String) (φ : Φ), HasRule (rules φ) ip →
    (runNetsh o'.delete (deleteCommand (ruleName ip)) φ).1 = o.delete ip

variable {rules}

/-- Both adapters find an address blocked, or neither does. -/
theorem isBlocked_eq {netsh : List String → Φ → Option CompletedProcess}
    (hshows : Shows rules netsh) (hfinds : Finds rules netsh) {c : Chain} {φ : Φ} (h : SameBlocks c (rules φ)) (ip : String) :
    isBlocked netsh ip φ = c.hasRule ip := by
  rw [Bool.eq_iff_iff, h.sameAddresses]
  constructor
  · exact hasRule_of_isBlocked hshows
  · intro hrule
    obtain ⟨result, hruns, hzero⟩ := hfinds ip φ hrule
    exact isBlocked_of_runs hshows hruns hzero

theorem interchangeable :
    Interchangeable (linuxAdapter.comap Prod.fst) (windowsAdapter.comap Prod.snd)
      (fun o : CommandOutcomes × NetshOutcomes Φ =>
        o.2.Documented rules ∧ SameOutcomes rules o.1 o.2)
      fun c φ => SameBlocks c (rules φ) where
  blockIp := by
    rintro ⟨o, o'⟩ c φ ip ⟨hdocumented, hsame⟩ h
    show (linuxAdapter.blockIp o ip c).1 = (windowsAdapter.blockIp o' ip φ).1 ∧
      SameBlocks (linuxAdapter.blockIp o ip c).2 (rules (windowsAdapter.blockIp o' ip φ).2)
    rw [linuxAdapter_blockIp, windowsAdapter_blockIp, (hsame.queries ip).2, Bool.true_and,
      isBlocked_eq hdocumented.recheck hsame.recheck h]
    dsimp only
    cases hrule : c.hasRule ip with
    | true => exact ⟨rfl, h⟩
    | false =>
      have hadd := hsame.add ip φ
      rw [if_neg Bool.false_ne_true, if_neg Bool.false_ne_true, hadd]
      cases happend : o.append ip with
      | true =>
        rw [if_pos rfl, if_pos rfl]
        refine ⟨rfl, ?_⟩
        rw [hdocumented.add_succeeds _ _ _ (hadd.trans happend)]
        exact h.add hrule
      | false =>
        rw [if_neg Bool.false_ne_true, if_neg Bool.false_ne_true]
        refine ⟨rfl, ?_⟩
        rw [hdocumented.add_fails _ _ _ (hadd.trans happend)]
        exact h
  unblockIp := by
    rintro ⟨o, o'⟩ c φ ip ⟨hdocumented, hsame⟩ h
    show (linuxAdapter.unblockIp o ip c).1 = (windowsAdapter.unblockIp o' ip φ).1 ∧
      SameBlocks (linuxAdapter.unblockIp o ip c).2 (rules (windowsAdapter.unblockIp o' ip φ).2)
    rw [linuxAdapter_unblockIp, windowsAdapter_unblockIp]
    dsimp only
    have hdelete : (runNetsh o'.delete (deleteCommand (ruleName ip)) φ).1 =
        (o.delete ip && c.hasRule ip) := by
      cases hrule : c.hasRule ip with
      | true => rw [hsame.delete ip φ ((h.sameAddresses ip).mp hrule), Bool.and_true]
      | false =>
        rw [Bool.and_false, ← Bool.not_eq_true]
        intro hsucceeds
        have hfound := (h.sameAddresses ip).mpr (hdocumented.delete_finds _ _ hsucceeds)
        rw [hrule] at hfound
        exact Bool.false_ne_true hfound
    rw [hdelete]
    cases hboth : o.delete ip && c.hasRule ip with
    | true =>
      rw [if_pos rfl, if_pos rfl]
      refine ⟨rfl, ?_⟩
      rw [hdocumented.delete_succeeds _ _ (hdelete.trans hboth)]
      exact h.delete ip
    | false =>
      rw [if_neg Bool.false_ne_true, if_neg Bool.false_ne_true]
      refine ⟨rfl, ?_⟩
      rw [hdocumented.delete_fails _ _ (hdelete.trans hboth)]
      exact h
  isBlocked := by
    rintro ⟨o, o'⟩ c φ ip ⟨hdocumented, hsame⟩ h
    show (o.check ip && c.hasRule ip) = isBlocked o'.check ip φ
    rw [(hsame.queries ip).1, Bool.true_and, isBlocked_eq hdocumented.check hsame.check h]

variable (rules) in
/-- Over firewalls with the same blocks, with a `netsh` as documented and while the queries
run, a blocker answers, records and keeps its books alike on either platform, and the
firewalls go on having the same blocks. -/
theorem platforms_agree {c : Chain} {φ : Φ} (h : SameBlocks c (rules φ))
    {ops : List (AutoBlocker.Operation (CommandOutcomes × NetshOutcomes Φ))}
    (hdocumented : ∀ op ∈ ops, op.host.outcomes.2.Documented rules)
    (hsame : ∀ op ∈ ops, SameOutcomes rules op.host.outcomes.1 op.host.outcomes.2) :
    let linux := AutoBlocker.machine (some (linuxAdapter.comap Prod.fst))
    let windows := AutoBlocker.machine (some (windowsAdapter.comap Prod.snd))
    linux.trace (.init c) ops = windows.trace (.init φ) ops ∧
      ∃ left, SameBlocks (linux.exec (.init c) ops).firewall (rules left) ∧
        windows.exec (.init φ) ops = (linux.exec (.init c) ops).withFirewall left :=
  AutoBlocker.alike_run interchangeable ⟨φ, h, rfl⟩
    fun op hop => ⟨hdocumented op hop, hsame op hop⟩

/-! ## A `netsh` over a list of rules -/

/-- The rules of a list. -/
def listed (rules : List NamedRule) : Set NamedRule := {r | r ∈ rules}

/-- What `show` prints of rules. -/
def shownText (shown : List NamedRule) : String :=
  String.join (shown.map fun r => "Rule Name: " ++ r.name ++ "\n")

def showRules (command : List String) (rules : List NamedRule) : Option CompletedProcess :=
  let shown := rules.filter fun r => showCommand r.name = command
  some (if shown = [] then ⟨1, some "No rules match the specified criteria."⟩
    else ⟨0, some (shownText shown)⟩)

/-- The text of an argument behind its key. -/
def argument (key arg : String) : String := String.ofList (arg.toList.drop key.toList.length)

def addRule : List String → List NamedRule → Option CompletedProcess × List NamedRule
  | [_, _, _, _, _, name, _, _, remoteIp, _], rules =>
    (some ⟨0, some "Ok."⟩, rules ++ [⟨argument "name=" name, argument "remoteip=" remoteIp⟩])
  | _, rules => (some ⟨1, some "A specified value is not valid."⟩, rules)

/-- Rules can be shown and added, and none is removed. -/
def refusedDelete : NetshOutcomes (List NamedRule) where
  check := showRules
  recheck := showRules
  add := addRule
  delete _ rules := (some ⟨1, some "The requested operation requires elevation."⟩, rules)

theorem showCommand_inj {name name' : String} :
    showCommand name = showCommand name' ↔ name = name' := by
  simp [showCommand, String.append_right_inj]

theorem argument_append (key text : String) : argument key (key ++ text) = text := by
  unfold argument
  rw [String.toList_append, List.drop_left, String.ofList_toList]

/-- What is shown of a rule contains its name. -/
theorem infix_shownText {shown : List NamedRule} {r : NamedRule} (h : r ∈ shown) :
    r.name.toList <:+: (shownText shown).toList := by
  obtain ⟨before, after, rfl⟩ := List.append_of_mem h
  unfold shownText
  rw [List.map_append, List.map_cons, String.join_append, String.join_cons, String.toList_append,
    String.toList_append, String.toList_append, String.toList_append]
  refine ⟨(String.join (before.map fun r => "Rule Name: " ++ r.name ++ "\n")).toList ++
      "Rule Name: ".toList,
    "\n".toList ++ (String.join (after.map fun r => "Rule Name: " ++ r.name ++ "\n")).toList, ?_⟩
  simp only [List.append_assoc]

theorem shows_showRules : Shows listed showRules := by
  intro name rules result hresult hzero
  unfold showRules at hresult
  dsimp only at hresult
  simp only [showCommand_inj] at hresult
  split at hresult
  · rw [← Option.some.inj hresult] at hzero
    exact absurd hzero (by decide)
  · next hne =>
    obtain ⟨r, hr⟩ := List.exists_mem_of_ne_nil _ hne
    obtain ⟨hmem, hname⟩ := List.mem_filter.mp hr
    rw [← Option.some.inj hresult]
    have hinfix := infix_shownText hr
    rw [of_decide_eq_true hname] at hinfix
    exact ⟨⟨r, hmem, of_decide_eq_true hname⟩, _, rfl, hinfix⟩

theorem finds_showRules : Finds listed showRules := by
  rintro ip rules ⟨r, hr, hname⟩
  refine ⟨_, rfl, ?_⟩
  have hne : (rules.filter fun r => showCommand r.name = showCommand (ruleName ip)) ≠ [] :=
    List.ne_nil_of_mem (List.mem_filter.mpr ⟨hr, by rw [hname]; exact decide_eq_true rfl⟩)
  rw [if_neg hne]

theorem runNetsh_addRule (name ip : String) (rules : List NamedRule) :
    runNetsh addRule (addCommand name ip) rules = (true, rules ++ [⟨name, ip⟩]) := by
  show (true, rules ++ [⟨argument "name=" ("name=" ++ name),
    argument "remoteip=" ("remoteip=" ++ ip)⟩]) = _
  rw [argument_append, argument_append]

theorem documented_refusedDelete : refusedDelete.Documented listed where
  check := shows_showRules
  recheck := shows_showRules
  add_succeeds name ip rules _ := by
    show listed (runNetsh addRule (addCommand name ip) rules).2 = _
    rw [runNetsh_addRule]
    ext r
    simp [listed, or_comm]
  add_fails name ip rules h := by
    have hsucceeds : (runNetsh addRule (addCommand name ip) rules).1 = true := by
      rw [runNetsh_addRule]
    exact absurd (hsucceeds.symm.trans h) (by decide)
  delete_finds _ _ h := absurd h Bool.false_ne_true
  delete_succeeds _ _ h := absurd h Bool.false_ne_true
  delete_fails _ _ _ := rfl

theorem sameOutcomes_refusedDelete :
    SameOutcomes listed { CommandOutcomes.allRun with delete := fun _ => false }
      refusedDelete where
  queries _ := ⟨rfl, rfl⟩
  check := finds_showRules
  recheck := finds_showRules
  add _ _ := rfl
  delete _ _ _ := rfl

theorem sameBlocks_nil : SameBlocks [] (listed []) where
  atMostOne _ := Nat.zero_le 1
  sameAddresses _ := iff_of_false Bool.false_ne_true fun ⟨_, hr, _⟩ => List.not_mem_nil hr
  remoteIp _ hr := absurd hr List.not_mem_nil

/-- A block that is lifted although the rule stays. -/
theorem platforms_agree_of_refusal :
    let outcomes : CommandOutcomes × NetshOutcomes (List NamedRule) :=
      ({ CommandOutcomes.allRun with delete := fun _ => false }, refusedDelete)
    let ops : List (AutoBlocker.Operation (CommandOutcomes × NetshOutcomes (List NamedRule))) :=
      [.tempBlock (.frozen 1000 outcomes lt_maxSeconds_1000) "8.8.8.8" 60,
        .expireBlocks (.frozen 1700000000 outcomes lt_maxSeconds_1700000000)]
    let linux := AutoBlocker.machine (some (linuxAdapter.comap Prod.fst))
    let windows := AutoBlocker.machine (some (windowsAdapter.comap Prod.snd))
    linux.trace (.init []) ops = windows.trace (.init []) ops ∧
      ∃ left : List NamedRule,
        SameBlocks (linux.exec (.init []) ops).firewall (listed left) ∧
        windows.exec (.init []) ops = (linux.exec (.init []) ops).withFirewall left := by
  refine platforms_agree listed sameBlocks_nil ?_ ?_
  · rintro op hop
    rcases List.mem_pair.mp hop with rfl | rfl
    · exact documented_refusedDelete
    · exact documented_refusedDelete
  · rintro op hop
    rcases List.mem_pair.mp hop with rfl | rfl
    · exact sameOutcomes_refusedDelete
    · exact sameOutcomes_refusedDelete

end SmartIDS.ResponseEngine
