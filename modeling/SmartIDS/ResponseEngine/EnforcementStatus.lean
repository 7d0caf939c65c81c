import SmartIDS.ResponseEngine.BlockLedger
set_option autoImplicit false

/-!
# ResponseEngine: the answer of a block request against what is enforced

Over a firewall whose commands succeed, an address with a time of its last block
has a rule, in every state the blocker reaches.  `temp_block` answers that
nothing is blocked when it refuses a request during the cooldown, and this is
the one answer that does not tell what is enforced.
-/

namespace SmartIDS.ResponseEngine

open SmartIDS.Foundation SmartIDS.PacketCapture SmartIDS.Python

/-- A firewall whose commands succeed under these outcomes; `ruled` tells which
addresses it has a rule for. -/
structure Reliable {Φ Ω : Type} (fw : FirewallAdapter Φ Ω) (succeeds : Ω → Prop)
    (ruled : Φ → String → Prop) : Prop where
  isBlocked : ∀ o, succeeds o → ∀ ip φ, fw.isBlocked o ip φ = true ↔ ruled φ ip
  blockIp : ∀ o, succeeds o → ∀ ip φ, (fw.blockIp o ip φ).1.1 = true ∧
    ∀ j, ruled (fw.blockIp o ip φ).2 j ↔ j = ip ∨ ruled φ j
  unblockIp_of_ne : ∀ o, succeeds o → ∀ ip φ j, j ≠ ip →
    (ruled (fw.unblockIp o ip φ).2 j ↔ ruled φ j)
  unblockIp_failed : ∀ o, succeeds o → ∀ ip φ, (fw.unblockIp o ip φ).1.1 = false →
    (fw.unblockIp o ip φ).2 = φ

/-- Every command of a call runs. -/
def CommandOutcomes.AllRun (o : CommandOutcomes) : Prop :=
  ∀ ip, o.check ip = true ∧ o.recheck ip = true ∧ o.append ip = true ∧ o.delete ip = true

theorem CommandOutcomes.allRun_allRun : CommandOutcomes.allRun.AllRun :=
  fun _ => ⟨rfl, rfl, rfl, rfl⟩

/-- The Linux adapter is reliable when its commands run. -/
theorem reliable_linuxAdapter :
    Reliable linuxAdapter CommandOutcomes.AllRun fun c ip => c.hasRule ip = true where
  isBlocked o ho ip c := by
    show (o.check ip && c.hasRule ip) = true ↔ _
    rw [(ho ip).1, Bool.true_and]
  blockIp o ho ip c := by
    obtain ⟨-, hrecheck, happend, -⟩ := ho ip
    unfold linuxAdapter run
    simp only [hrecheck, happend, Bool.true_and, if_true]
    split_ifs with hrule
    · refine ⟨rfl, fun j => ⟨Or.inr, fun hj => ?_⟩⟩
      rcases hj with rfl | hj
      · exact hrule
      · exact hj
    · refine ⟨rfl, fun j => ?_⟩
      simp only [Chain.hasRule, List.any_append, List.any_cons, List.any_nil, Bool.or_false,
        Bool.or_eq_true, decide_eq_true_eq]
      exact or_comm.trans (or_congr_left eq_comm)
  unblockIp_of_ne o _ ip c j hne := by
    rw [Chain.hasRule_iff, rulesOf_unblockIp_of_ne o c hne, Chain.hasRule_iff]
  unblockIp_failed o _ ip c hfailed := by
    rw [linuxAdapter_unblockIp] at hfailed ⊢
    split_ifs at hfailed ⊢
    rfl

namespace AutoBlocker

variable {Φ Ω : Type} {fw : FirewallAdapter Φ Ω} {succeeds : Ω → Prop}
  {ruled : Φ → String → Prop}

/-- Every address with a time of its last block has a rule. -/
def AllRuled (ruled : Φ → String → Prop) (b : AutoBlocker Φ) : Prop :=
  ∀ ip ∈ b.lastBlockTime.keys, ruled b.firewall ip

section step

variable {h : Host Ω} {b : AutoBlocker Φ} (hfw : Reliable fw succeeds ruled)
  (hh : succeeds h.outcomes)

include hfw hh

theorem AllRuled.expireOne (hruled : AllRuled ruled b) (ip : String) :
    AllRuled ruled (expireOne fw h b ip) := by
  intro j hj
  rw [lastBlockTime_expireOne, Dict.mem_keys_erase] at hj
  rw [firewall_expireOne, hfw.unblockIp_of_ne _ hh ip _ j hj.2]
  exact hruled j hj.1

theorem AllRuled.expireBlocks (hruled : AllRuled ruled b) :
    AllRuled ruled (expireBlocks (some fw) h b) := by
  unfold AutoBlocker.expireBlocks
  simp only
  induction b.expired h.clock.expireTime generalizing b with
  | nil => exact hruled
  | cons ip ips ih => exact ih (hruled.expireOne hfw hh ip)

/-- A reliable firewall accepts every request and then has the rule. -/
theorem accepts_of_reliable (ip : String) (φ : Φ) :
    accepts fw h.outcomes ip φ = true ∧ ruled (firewallAfter fw h.outcomes ip φ) ip := by
  unfold accepts firewallAfter
  cases hblocked : fw.isBlocked h.outcomes ip φ with
  | true => exact ⟨rfl, (hfw.isBlocked _ hh ip φ).mp hblocked⟩
  | false =>
    obtain ⟨hok, hrules⟩ := hfw.blockIp _ hh ip φ
    exact ⟨hok, (hrules ip).mpr (Or.inl rfl)⟩

theorem ruled_firewallAfter {ip j : String} {φ : Φ} (hj : ruled φ j) :
    ruled (firewallAfter fw h.outcomes ip φ) j := by
  unfold firewallAfter
  split_ifs
  · exact hj
  · exact ((hfw.blockIp _ hh ip φ).2 j).mpr (Or.inr hj)

theorem AllRuled.enforce (hruled : AllRuled ruled b) (ip : String) (duration : ℤ) :
    AllRuled ruled (enforce fw h ip duration b).2 := by
  have hspec := enforced fw h ip duration b
  obtain ⟨haccepts, hnew⟩ := accepts_of_reliable hfw hh ip b.firewall
  intro j hj
  rw [hspec.lastBlockTime, if_pos haccepts, Dict.mem_keys_set] at hj
  rw [hspec.firewall]
  rcases hj with rfl | hj
  · exact hnew
  · exact ruled_firewallAfter hfw hh (hruled j hj)

theorem AllRuled.tempBlock (hruled : AllRuled ruled b) (ip : String) (duration : ℤ) :
    AllRuled ruled (tempBlock (some fw) h ip duration b).2 := by
  cases hip : isValidRoutableIp ip with
  | false =>
    rw [tempBlock_of_invalid _ _ _ _ hip]
    exact hruled
  | true =>
    have hswept := hruled.expireBlocks hfw hh
    rw [tempBlock_of_valid _ _ _ _ hip]
    split_ifs
    · exact hswept
    · exact hswept.enforce hfw hh ip duration

theorem AllRuled.manualUnblock (hruled : AllRuled ruled b) (ip : String) :
    AllRuled ruled (manualUnblock (some fw) h ip b).2 := by
  unfold AutoBlocker.manualUnblock
  cases isValidRoutableIp ip with
  | false => exact hruled
  | true =>
    simp only [if_true]
    cases hok : (fw.unblockIp h.outcomes ip b.firewall).1.1 with
    | true =>
      rw [if_pos rfl]
      exact hruled.expireOne hfw hh ip
    | false =>
      rw [if_neg Bool.false_ne_true]
      intro j hj
      show ruled (fw.unblockIp h.outcomes ip b.firewall).2 j
      rw [hfw.unblockIp_failed _ hh ip _ hok]
      exact hruled j hj

end step

/-! ## All calls -/

/-- A call of the blocker: one of its operations, or what changes no block. -/
inductive Call (Ω : Type) where
  | operation (op : Operation Ω)
  | watchlistIp (h : Host Ω) (ip : String)
  | unwatchlistIp (h : Host Ω) (ip : String)
  | recordDetectionActivity (ip attackType action : String) (timestamp : Time)

/-- The firewall commands of the call succeed. -/
def Call.Succeeds (succeeds : Ω → Prop) : Call Ω → Prop
  | .operation op => succeeds op.host.outcomes
  | _ => True

/-- The blocker under all its calls. -/
def calls (fw : Option (FirewallAdapter Φ Ω)) : Machine (AutoBlocker Φ) (Call Ω) Unit where
  step b
    | .operation op => (((machine fw).step b op).1, ())
    | .watchlistIp h ip => ((watchlistIp h ip b).2, ())
    | .unwatchlistIp h ip => ((unwatchlistIp h ip b).2, ())
    | .recordDetectionActivity ip attackType action timestamp =>
      (b.recordDetectionActivity ip attackType action timestamp, ())

theorem AllRuled.step (hfw : Reliable fw succeeds ruled) {b : AutoBlocker Φ}
    (hruled : AllRuled ruled b) {op : Operation Ω} (hop : succeeds op.host.outcomes) :
    AllRuled ruled ((machine (some fw)).step b op).1 := by
  cases op with
  | tempBlock h ip duration => exact hruled.tempBlock hfw hop ip duration
  | manualBlock h ip duration => exact hruled.tempBlock hfw hop ip duration
  | manualUnblock h ip => exact hruled.manualUnblock hfw hop ip
  | expireBlocks h => exact hruled.expireBlocks hfw hop

theorem AllRuled.calls (hfw : Reliable fw succeeds ruled) {b : AutoBlocker Φ}
    (hruled : AllRuled ruled b) {c : Call Ω} (hc : c.Succeeds succeeds) :
    AllRuled ruled ((calls (some fw)).step b c).1 := by
  cases c with
  | operation op => exact hruled.step hfw hc
  | watchlistIp h ip =>
    unfold AutoBlocker.calls AutoBlocker.watchlistIp
    dsimp only
    split_ifs <;> exact hruled
  | unwatchlistIp h ip =>
    unfold AutoBlocker.calls AutoBlocker.unwatchlistIp
    dsimp only
    split_ifs <;> exact hruled
  | recordDetectionActivity ip attackType action timestamp => exact hruled

theorem allRuled_exec (hfw : Reliable fw succeeds ruled) (firewall : Φ) (cs : List (Call Ω))
    (hcs : ∀ c ∈ cs, c.Succeeds succeeds) :
    AllRuled ruled ((calls (some fw)).exec (init firewall) cs) := by
  induction cs using List.reverseRecOn with
  | nil => exact fun ip hip => absurd hip List.not_mem_nil
  | append_singleton cs c ih =>
    rw [Machine.exec_concat]
    exact (ih fun c' hc' => hcs c' (List.mem_append_left _ hc')).calls hfw (hcs c (by simp))

/-- What a blocker comes to by calls whose firewall commands succeed. -/
def Reaches (fw : FirewallAdapter Φ Ω) (succeeds : Ω → Prop) (firewall : Φ) (b : AutoBlocker Φ) :
    Prop :=
  ∃ cs, (∀ c ∈ cs, c.Succeeds succeeds) ∧ b = (calls (some fw)).exec (init firewall) cs

theorem Reaches.step {firewall : Φ} {b : AutoBlocker Φ} (hb : Reaches fw succeeds firewall b)
    {c : Call Ω} (hc : c.Succeeds succeeds) :
    Reaches fw succeeds firewall ((calls (some fw)).step b c).1 := by
  obtain ⟨cs, hcs, rfl⟩ := hb
  refine ⟨cs ++ [c], fun c' hc' => ?_, (Machine.exec_concat _ _ _ _).symm⟩
  rcases List.mem_append.mp hc' with hc' | hc'
  · exact hcs c' hc'
  · rw [List.mem_singleton.mp hc']
    exact hc

/-! ## The answer -/

/-- A request that returns answers whether the address is blocked afterwards. -/
def AnswersTruly (fw : Option (FirewallAdapter Φ Ω)) (h : Host Ω) (ip : String) (duration : ℤ)
    (b : AutoBlocker Φ) : Prop :=
  ∀ answer b', tempBlock fw h ip duration b = (.ok answer, b') →
    (answer.1 = true ↔ isCurrentlyBlocked fw h b' ip = true)

theorem isCurrentlyBlocked_of_ruled (hfw : Reliable fw succeeds ruled) {h : Host Ω}
    (hh : succeeds h.outcomes) {b : AutoBlocker Φ} {ip : String} (hrule : ruled b.firewall ip) :
    isCurrentlyBlocked (some fw) h b ip = true := by
  unfold isCurrentlyBlocked
  simp only
  split_ifs
  · rfl
  · exact (hfw.isBlocked _ hh ip _).mpr hrule

/-- An address that is cooling down has a time of its last block. -/
theorem mem_keys_of_coolingDown {b : AutoBlocker Φ} {now : Time} {ip : String}
    (hcool : b.coolingDown now ip = true) : ip ∈ b.lastBlockTime.keys := by
  unfold coolingDown at hcool
  cases hlast : b.lastBlockTime.get? ip with
  | none => simp [hlast] at hcool
  | some last => exact Dict.mem_keys_of_get? hlast

/-- After the sweep the cooldown decides whether the request is refused, and the
address is blocked either way. -/
theorem tempBlock_blocked (hfw : Reliable fw succeeds ruled) {h : Host Ω}
    (hh : succeeds h.outcomes) {b : AutoBlocker Φ} (hruled : AllRuled ruled b) {ip : String}
    (hip : isValidRoutableIp ip = true) {duration : ℤ} {answer : Bool × String}
    {b' : AutoBlocker Φ} (hcall : tempBlock (some fw) h ip duration b = (.ok answer, b')) :
    answer.1 = !(expireBlocks (some fw) h b).coolingDown h.clock.now ip ∧
      isCurrentlyBlocked (some fw) h b' ip = true := by
  have hswept := hruled.expireBlocks hfw hh
  rw [tempBlock_of_valid _ _ _ _ hip] at hcall
  cases hcool : (expireBlocks (some fw) h b).coolingDown h.clock.now ip with
  | true =>
    rw [hcool, if_pos rfl, Prod.mk.injEq, Except.ok.injEq] at hcall
    obtain ⟨rfl, rfl⟩ := hcall
    exact ⟨rfl, isCurrentlyBlocked_of_ruled hfw hh (hswept ip (mem_keys_of_coolingDown hcool))⟩
  | false =>
    rw [hcool, if_neg Bool.false_ne_true] at hcall
    obtain ⟨haccepts, hrule⟩ := accepts_of_reliable hfw hh ip (expireBlocks (some fw) h b).firewall
    have hreturns := (enforce_returns_iff fw h ip duration _).mp ⟨answer, congrArg Prod.fst hcall⟩
    have hanswer := enforce_of_recordable fw ip (expireBlocks (some fw) h b) (hreturns haccepts)
    rw [hcall, Except.ok.injEq] at hanswer
    constructor
    · rw [hanswer, answerOf_fst, haccepts]
      rfl
    · refine isCurrentlyBlocked_of_ruled hfw hh ?_
      have hfirewall := (enforced fw h ip duration (expireBlocks (some fw) h b)).firewall
      rw [hcall] at hfirewall
      rw [hfirewall]
      exact hrule

/-- In a reachable state the answer tells what is enforced exactly when the
request is not refused for the cooldown. -/
theorem answersTruly_iff (hfw : Reliable fw succeeds ruled) {h : Host Ω}
    (hh : succeeds h.outcomes) {b : AutoBlocker Φ} (hruled : AllRuled ruled b) {ip : String}
    (hip : isValidRoutableIp ip = true) (duration : ℤ) :
    AnswersTruly (some fw) h ip duration b ↔
      (expireBlocks (some fw) h b).coolingDown h.clock.now ip = false := by
  constructor
  · intro htruly
    rw [← Bool.not_eq_true]
    intro hcool
    have hcall := tempBlock_of_valid fw h duration b hip
    rw [hcool, if_pos rfl] at hcall
    have hblocked := (tempBlock_blocked hfw hh hruled hip hcall).2
    exact Bool.false_ne_true ((htruly _ _ hcall).mpr hblocked)
  · intro hcool answer b' hcall
    obtain ⟨hflag, hblocked⟩ := tempBlock_blocked hfw hh hruled hip hcall
    rw [hcool] at hflag
    rw [hflag, hblocked]
    rfl

/-- An address without a rule is not cooling down, before the sweep or behind it. -/
theorem coolingDown_of_not_isCurrentlyBlocked (hfw : Reliable fw succeeds ruled) {h : Host Ω}
    (hh : succeeds h.outcomes) {b : AutoBlocker Φ} (hruled : AllRuled ruled b) {ip : String}
    (hfree : isCurrentlyBlocked (some fw) h b ip = false) :
    (expireBlocks (some fw) h b).coolingDown h.clock.now ip = false := by
  have hrule : ¬ ruled b.firewall ip := by
    intro hrule
    rw [isCurrentlyBlocked_of_ruled hfw hh hrule] at hfree
    cases hfree
  have hnone : b.lastBlockTime.get? ip = none :=
    (Dict.get?_eq_none_iff _ _).mpr fun hmem => hrule (hruled ip hmem)
  unfold coolingDown
  rw [get?_lastBlockTime_expireBlocks, hnone, ite_self]

/-! ## What the blocker notes itself -/

/-- Nothing that was noted since says that an address was allowed. -/
def NotesNoAllowed (noted : List Activity) (b : AutoBlocker Φ) : Prop :=
  ∃ since, b.activity = noted ++ since ∧ ∀ r ∈ since, r.action ≠ "allowed"

theorem NotesNoAllowed.refl (b : AutoBlocker Φ) : NotesNoAllowed b.activity b :=
  ⟨[], (List.append_nil _).symm, fun _ h => absurd h List.not_mem_nil⟩

theorem NotesNoAllowed.note {noted : List Activity} {b : AutoBlocker Φ}
    (hb : NotesNoAllowed noted b) (ip attackType : String) {action : String}
    (haction : action ≠ "allowed") (timestamp : Time) :
    NotesNoAllowed noted (b.recordDetectionActivity ip attackType action timestamp) := by
  obtain ⟨since, heq, hsince⟩ := hb
  refine ⟨since ++ [⟨ip, attackType, action, timestamp⟩], ?_, ?_⟩
  · change b.activity ++ _ = _
    rw [heq, List.append_assoc]
  · intro r hr
    rcases List.mem_append.mp hr with hr | hr
    · exact hsince r hr
    · rw [List.mem_singleton.mp hr]
      exact haction

theorem NotesNoAllowed.expireBlocks {noted : List Activity} (fw : Option (FirewallAdapter Φ Ω))
    (h : Host Ω) {b : AutoBlocker Φ} (hb : NotesNoAllowed noted b) :
    NotesNoAllowed noted (expireBlocks fw h b) := by
  unfold AutoBlocker.expireBlocks
  cases fw with
  | none => exact hb
  | some fw =>
    dsimp only
    induction b.expired h.clock.expireTime generalizing b with
    | nil => exact hb
    | cons ip ips ih =>
      refine ih ?_
      have haction : (if (fw.unblockIp h.outcomes ip b.firewall).1.1 = true then "unblocked"
          else "unblock_failed") ≠ "allowed" := by
        split <;> decide
      exact hb.note ip "unblock_action" haction h.clock.expireTime

theorem keeps_record {noted : List Activity} (h : Host Ω) (status ip : String) (duration : ℤ) :
    Effect.Keeps (NotesNoAllowed noted) (record h status ip duration :
      Effect PyError (AutoBlocker Φ) Unit) :=
  .bind (.ofExcept _) fun _ => .modify fun _ hb => hb

theorem keeps_grant {noted : List Activity} (h : Host Ω) (ip : String) (duration : ℤ) :
    Effect.Keeps (NotesNoAllowed noted) (grant h ip duration :
      Effect PyError (AutoBlocker Φ) Unit) :=
  .bind (.modify fun _ hb => hb) fun _ => .bind (.ofExcept _) fun _ => .modify fun _ hb => hb

theorem keeps_enforce {noted : List Activity} (fw : FirewallAdapter Φ Ω) (h : Host Ω)
    (ip : String) (duration : ℤ) :
    Effect.Keeps (NotesNoAllowed noted) (enforce fw h ip duration) := by
  have hblocked : "blocked" ≠ "allowed" := by decide
  refine .bind .get fun b => ?_
  dsimp only
  split
  · exact .bind (keeps_grant h ip duration) fun _ => .bind (keeps_record h _ ip duration) fun _ =>
      .bind (.modify fun _ hb => hb.note ip _ hblocked _) fun _ => .pure _
  · refine .bind (.modify fun _ hb => hb) fun _ => ?_
    split
    · exact .bind (keeps_grant h ip duration) fun _ => .bind (.modify fun _ hb => hb) fun _ =>
        .bind (keeps_record h _ ip duration) fun _ =>
          .bind (.modify fun _ hb => hb.note ip _ hblocked _) fun _ => .pure _
    · exact .pure _

/-- A block request notes that addresses were blocked or unblocked. -/
theorem keeps_tempBlock (noted : List Activity) (fw : Option (FirewallAdapter Φ Ω)) (h : Host Ω)
    (ip : String) (duration : ℤ) :
    Effect.Keeps (NotesNoAllowed noted) (tempBlock fw h ip duration) := by
  unfold tempBlock
  cases fw with
  | none => exact .pure _
  | some adapter =>
    dsimp only
    split
    · refine .bind (.modify fun _ hb => hb.expireBlocks (some adapter) h) fun _ =>
        .bind .get fun b => ?_
      split
      · exact .pure _
      · exact keeps_enforce adapter h ip duration
    · exact .pure _

end AutoBlocker

end SmartIDS.ResponseEngine
