import SmartIDS.ResponseEngine.AutoBlocker
set_option autoImplicit false

/-!
# ResponseEngine: what each call of the blocker leaves behind

One specification for each part of the blocker, field by field and whichever
way the call ends: the expiry sweep, a block request past its checks, and the
whole of `temp_block`.  The results about deadlines, rules and commands cite
these and never unfold the blocker.
-/

namespace SmartIDS.ResponseEngine

open SmartIDS.Foundation SmartIDS.PacketCapture SmartIDS.Python

namespace AutoBlocker

variable {Φ Ω : Type}

/-! ## What an expiry sweep leaves behind -/

theorem mem_expired_iff (b : AutoBlocker Φ) (now : Time) (ip : String) :
    ip ∈ b.expired now ↔ ∃ until_, b.blockedUntil.get? ip = some until_ ∧ until_ ≤ now := by
  simp only [expired, List.mem_map, List.mem_filter, decide_eq_true_eq, Dict.get?_eq_some_iff]
  constructor
  · rintro ⟨⟨j, until_⟩, ⟨hmem, hle⟩, rfl⟩
    exact ⟨until_, hmem, hle⟩
  · rintro ⟨until_, hmem, hle⟩
    exact ⟨(ip, until_), ⟨hmem, hle⟩, rfl⟩

theorem nodup_expired (b : AutoBlocker Φ) (now : Time) : (b.expired now).Nodup :=
  b.blockedUntil.nodup.sublist (List.filter_sublist.map _)

@[simp] theorem firewall_expireOne (fw : FirewallAdapter Φ Ω) (h : Host Ω) (b : AutoBlocker Φ)
    (ip : String) : (expireOne fw h b ip).firewall = (fw.unblockIp h.outcomes ip b.firewall).2 := rfl

@[simp] theorem blockedUntil_expireOne (fw : FirewallAdapter Φ Ω) (h : Host Ω) (b : AutoBlocker Φ)
    (ip : String) : (expireOne fw h b ip).blockedUntil = b.blockedUntil.erase ip := rfl

@[simp] theorem lastBlockTime_expireOne (fw : FirewallAdapter Φ Ω) (h : Host Ω)
    (b : AutoBlocker Φ) (ip : String) :
    (expireOne fw h b ip).lastBlockTime = b.lastBlockTime.erase ip := rfl

@[simp] theorem watchlistedIps_expireOne (fw : FirewallAdapter Φ Ω) (h : Host Ω)
    (b : AutoBlocker Φ) (ip : String) :
    (expireOne fw h b ip).watchlistedIps = b.watchlistedIps := rfl

theorem blockedUntil_foldl_expireOne (fw : FirewallAdapter Φ Ω) (h : Host Ω) (ips : List String)
    (b : AutoBlocker Φ) :
    (ips.foldl (expireOne fw h) b).blockedUntil = ips.foldl Dict.erase b.blockedUntil := by
  induction ips generalizing b with
  | nil => rfl
  | cons ip ips ih => exact ih (expireOne fw h b ip)

theorem lastBlockTime_foldl_expireOne (fw : FirewallAdapter Φ Ω) (h : Host Ω) (ips : List String)
    (b : AutoBlocker Φ) :
    (ips.foldl (expireOne fw h) b).lastBlockTime = ips.foldl Dict.erase b.lastBlockTime := by
  induction ips generalizing b with
  | nil => rfl
  | cons ip ips ih => exact ih (expireOne fw h b ip)

/-- The sweep drops exactly the deadlines that have passed. -/
theorem get?_blockedUntil_expireBlocks (fw : FirewallAdapter Φ Ω) (h : Host Ω) (b : AutoBlocker Φ)
    (ip : String) :
    (expireBlocks (some fw) h b).blockedUntil.get? ip =
      if ip ∈ b.expired h.clock.expireTime then none else b.blockedUntil.get? ip := by
  unfold expireBlocks
  rw [blockedUntil_foldl_expireOne, Dict.get?_foldl_erase]

/-- The sweep forgets the cooldown of the addresses it unblocks, and no other. -/
theorem get?_lastBlockTime_expireBlocks (fw : FirewallAdapter Φ Ω) (h : Host Ω)
    (b : AutoBlocker Φ) (ip : String) :
    (expireBlocks (some fw) h b).lastBlockTime.get? ip =
      if ip ∈ b.expired h.clock.expireTime then none else b.lastBlockTime.get? ip := by
  unfold expireBlocks
  rw [lastBlockTime_foldl_expireOne, Dict.get?_foldl_erase]

/-! ## What a block request leaves behind

Each field of the blocker after `enforce`, whichever way the call ends. -/

/-- The firewall holds a rule for the address, or accepts one. -/
def accepts (fw : FirewallAdapter Φ Ω) (o : Ω) (ip : String) (φ : Φ) : Bool :=
  fw.isBlocked o ip φ || (fw.blockIp o ip φ).1.1

/-- The firewall after `enforce`. -/
def firewallAfter (fw : FirewallAdapter Φ Ω) (o : Ω) (ip : String) (φ : Φ) : Φ :=
  if fw.isBlocked o ip φ then φ else (fw.blockIp o ip φ).2

/-- The fields of `b'` that matter to later calls, in terms of those of `b`. -/
structure Enforced (fw : FirewallAdapter Φ Ω) (h : Host Ω) (ip : String) (duration : ℤ)
    (b b' : AutoBlocker Φ) : Prop where
  firewall : b'.firewall = firewallAfter fw h.outcomes ip b.firewall
  lastBlockTime : b'.lastBlockTime =
    if accepts fw h.outcomes ip b.firewall then b.lastBlockTime.set ip h.clock.now
    else b.lastBlockTime
  blockedUntil : b'.blockedUntil =
    if accepts fw h.outcomes ip b.firewall ∧ FitsDouble (max 1 duration) then
      b.blockedUntil.set ip (h.clock.now + (max 1 duration : ℤ))
    else b.blockedUntil
  watchlistedIps : b'.watchlistedIps = b.watchlistedIps

/-- What `record` does to the state; it leaves every field but the log alone. -/
theorem record_apply (h : Host Ω) (status ip : String) (duration : ℤ) (b : AutoBlocker Φ) :
    record h status ip duration b = match recordedUntil h duration with
      | .ok until_ => (.ok (), appendRecord status ip duration until_ b)
      | .error e => (.error e, b) := by
  unfold record
  rw [Effect.bind_apply, Effect.ofExcept_apply]
  cases recordedUntil h duration <;> rfl

theorem grant_apply (h : Host Ω) (ip : String) (duration : ℤ) (b : AutoBlocker Φ) :
    grant h ip duration b =
      if FitsDouble (max 1 duration) then
        (.ok (), { b with
          lastBlockTime := b.lastBlockTime.set ip h.clock.now
          blockedUntil := b.blockedUntil.set ip (h.clock.now + (max 1 duration : ℤ)) })
      else
        (.error .overflowError, { b with
          lastBlockTime := b.lastBlockTime.set ip h.clock.now }) := by
  unfold grant
  rw [Effect.bind_of_ok (Effect.modify_apply _ _), Effect.bind_apply, Effect.ofExcept_apply]
  split_ifs with hfits
  · rw [addSeconds_of_fits hfits]
    rfl
  · rw [addSeconds_of_not_fits hfits]

/-- `enforce` when the firewall already holds a rule. -/
theorem enforced_of_isBlocked {fw : FirewallAdapter Φ Ω} {h : Host Ω} {ip : String} {duration : ℤ}
    {b : AutoBlocker Φ} (hblocked : fw.isBlocked h.outcomes ip b.firewall = true) :
    Enforced fw h ip duration b (enforce fw h ip duration b).2 := by
  have haccepts : accepts fw h.outcomes ip b.firewall = true := by simp [accepts, hblocked]
  unfold enforce
  rw [Effect.bind_of_ok (Effect.get_apply b), if_pos hblocked, Effect.bind_apply, grant_apply]
  split_ifs with hfits
  · simp only [Effect.bind_apply, record_apply]
    cases recordedUntil h duration
    all_goals
      constructor <;>
        simp [firewallAfter, haccepts, hblocked, hfits, appendRecord, recordDetectionActivity]
  · constructor <;> simp [firewallAfter, haccepts, hblocked, hfits]

/-- `enforce` when the firewall has to be asked to add one. -/
theorem enforced_of_not_isBlocked {fw : FirewallAdapter Φ Ω} {h : Host Ω} {ip : String}
    {duration : ℤ} {b : AutoBlocker Φ} (hblocked : fw.isBlocked h.outcomes ip b.firewall = false) :
    Enforced fw h ip duration b (enforce fw h ip duration b).2 := by
  have haccepts : accepts fw h.outcomes ip b.firewall =
      (fw.blockIp h.outcomes ip b.firewall).1.1 := by simp [accepts, hblocked]
  unfold enforce
  rw [Effect.bind_of_ok (Effect.get_apply b), if_neg (by simp [hblocked]),
    Effect.bind_of_ok (Effect.modify_apply _ _)]
  cases hok : (fw.blockIp h.outcomes ip b.firewall).1.1 with
  | false =>
    constructor <;> simp [firewallAfter, haccepts, hblocked, hok]
  | true =>
    rw [if_pos rfl, Effect.bind_apply, grant_apply]
    split_ifs with hfits
    · simp only [Effect.bind_apply, Effect.modify_apply, record_apply]
      cases recordedUntil h duration
      all_goals
        constructor <;>
          simp [firewallAfter, haccepts, hblocked, hok, hfits, appendRecord,
            recordDetectionActivity]
    · constructor <;> simp [firewallAfter, haccepts, hblocked, hok, hfits]

theorem enforced (fw : FirewallAdapter Φ Ω) (h : Host Ω) (ip : String) (duration : ℤ)
    (b : AutoBlocker Φ) : Enforced fw h ip duration b (enforce fw h ip duration b).2 := by
  cases hblocked : fw.isBlocked h.outcomes ip b.firewall with
  | true => exact enforced_of_isBlocked hblocked
  | false => exact enforced_of_not_isBlocked hblocked

/-- The blocks of an address are counted when the firewall accepts a new rule. -/
theorem blockCounts_enforce (fw : FirewallAdapter Φ Ω) (h : Host Ω) (ip : String) {duration : ℤ}
    (b : AutoBlocker Φ) (hfits : FitsDouble (max 1 duration)) :
    (enforce fw h ip duration b).2.blockCounts =
      if fw.isBlocked h.outcomes ip b.firewall = false ∧
          (fw.blockIp h.outcomes ip b.firewall).1.1 = true then
        b.blockCounts.set ip ((b.blockCounts.get? ip).getD 0 + 1)
      else b.blockCounts := by
  unfold enforce
  rw [Effect.bind_of_ok (Effect.get_apply b)]
  cases hblocked : fw.isBlocked h.outcomes ip b.firewall with
  | true =>
    rw [if_pos rfl, Effect.bind_apply, grant_apply, if_pos hfits]
    simp only [Effect.bind_apply, record_apply]
    cases recordedUntil h duration <;> rfl
  | false =>
    rw [if_neg Bool.false_ne_true, Effect.bind_of_ok (Effect.modify_apply _ _)]
    cases hok : (fw.blockIp h.outcomes ip b.firewall).1.1 with
    | false => rfl
    | true =>
      rw [if_pos rfl, Effect.bind_apply, grant_apply, if_pos hfits]
      simp only [Effect.bind_apply, Effect.modify_apply, record_apply]
      cases recordedUntil h duration <;> rfl

/-- Whether an enforced block is written down without an exception: the deadline
`_record` computes is a date. -/
def Recordable (h : Host Ω) (duration : ℤ) : Prop :=
  0 < duration → h.clock.recordTime + duration < maxTimestamp

instance (h : Host Ω) (duration : ℤ) : Decidable (Recordable h duration) :=
  inferInstanceAs (Decidable (_ → _))

theorem Recordable.fitsDouble {h : Host Ω} {duration : ℤ} (hrec : Recordable h duration) :
    FitsDouble (max 1 duration) := by
  rcases le_or_gt duration 0 with hle | hpos
  · have hone : max 1 duration = 1 := by omega
    rw [hone]
    exact fitsDouble_of_lt (by decide)
  · have hmax : max 1 duration = duration := by omega
    have hlow : minTimestamp ≤ h.clock.recordTime :=
      h.clock.minTimestamp_le_expireTime.trans
        (h.clock.expireTime_le_now.trans h.clock.now_le_recordTime)
    have hlt : (duration : ℚ) < 2 ^ 64 := by
      have := hrec hpos
      unfold minTimestamp at hlow
      unfold maxTimestamp at this
      norm_num
      linarith
    have hlt' : duration < 2 ^ 64 := by exact_mod_cast hlt
    rw [hmax]
    exact fitsDouble_of_lt (by omega)

theorem recordedUntil_isOk_iff (h : Host Ω) (duration : ℤ) :
    (∃ u, recordedUntil h duration = .ok u) ↔ Recordable h duration := by
  unfold recordedUntil Recordable
  rcases le_or_gt duration 0 with hle | hpos
  · rw [if_neg (by omega)]
    exact ⟨fun _ hpos => absurd hpos (by omega), fun _ => ⟨none, rfl⟩⟩
  · rw [if_pos hpos]
    have hlow : minTimestamp ≤ h.clock.recordTime + duration := by
      have h₁ := h.clock.minTimestamp_le_expireTime
      have h₂ := h.clock.expireTime_le_now
      have h₃ := h.clock.now_le_recordTime
      have h₄ : (0 : ℚ) < duration := by exact_mod_cast hpos
      linarith
    constructor
    · rintro ⟨u, hu⟩ -
      rcases em (FitsDouble duration) with hfits | hfits
      · rw [addSeconds_of_fits hfits] at hu
        cases hstamp : fromTimestamp (h.clock.recordTime + duration) with
        | ok t => exact ((fromTimestamp_ok_iff _ _).mp hstamp).2.2
        | error e => simp [bind, Except.bind, hstamp] at hu
      · rw [addSeconds_of_not_fits hfits] at hu
        simp [bind, Except.bind] at hu
    · intro hlt
      have hfits : FitsDouble duration := by
        have := Recordable.fitsDouble (h := h) hlt
        rwa [max_eq_right (by omega)] at this
      have hstamp := (fromTimestamp_ok_iff (h.clock.recordTime + duration) _).mpr ⟨rfl, hlow, hlt hpos⟩
      exact ⟨some (h.clock.recordTime + duration), by
        rw [addSeconds_of_fits hfits]
        simp [bind, Except.bind, hstamp, pure, Except.pure]⟩

theorem record_of_recordable {h : Host Ω} {duration : ℤ} (hrec : Recordable h duration)
    (status ip : String) (b : AutoBlocker Φ) :
    ∃ until_, record h status ip duration b =
      (.ok (), appendRecord status ip duration until_ b) := by
  obtain ⟨until_, hok⟩ := (recordedUntil_isOk_iff h duration).mpr hrec
  exact ⟨until_, by rw [record_apply, hok]⟩

theorem record_of_not_recordable {h : Host Ω} {duration : ℤ} (hrec : ¬ Recordable h duration)
    (status ip : String) (b : AutoBlocker Φ) :
    ∃ e, record h status ip duration b = (.error e, b) := by
  cases hend : recordedUntil h duration with
  | ok until_ => exact absurd ((recordedUntil_isOk_iff h duration).mp ⟨until_, hend⟩) hrec
  | error e => exact ⟨e, by rw [record_apply, hend]⟩

/-- The answer to a block request whose deadline can be written down. -/
def answerOf (fw : FirewallAdapter Φ Ω) (o : Ω) (ip : String) (φ : Φ) : Bool × String :=
  if fw.isBlocked o ip φ then (true, "already_blocked") else (fw.blockIp o ip φ).1

theorem enforce_of_recordable (fw : FirewallAdapter Φ Ω) {h : Host Ω} (ip : String) {duration : ℤ}
    (b : AutoBlocker Φ) (hrec : Recordable h duration) :
    (enforce fw h ip duration b).1 = .ok (answerOf fw h.outcomes ip b.firewall) := by
  unfold enforce answerOf
  rw [Effect.bind_of_ok (Effect.get_apply b)]
  cases hblocked : fw.isBlocked h.outcomes ip b.firewall with
  | true =>
    rw [if_pos rfl, Effect.bind_apply, grant_apply, if_pos hrec.fitsDouble]
    simp only [Effect.bind_apply]
    obtain ⟨until_, hrecord⟩ := record_of_recordable hrec "already_blocked" ip { b with
      lastBlockTime := b.lastBlockTime.set ip h.clock.now
      blockedUntil := b.blockedUntil.set ip (h.clock.now + (max 1 duration : ℤ)) }
    rw [hrecord]
    rfl
  | false =>
    rw [if_neg (by simp), Effect.bind_of_ok (Effect.modify_apply _ _)]
    cases hok : (fw.blockIp h.outcomes ip b.firewall).1.1 with
    | false => simp
    | true =>
      rw [if_pos rfl, Effect.bind_apply, grant_apply, if_pos hrec.fitsDouble]
      simp only [Effect.bind_apply, Effect.modify_apply]
      obtain ⟨until_, hend⟩ := (recordedUntil_isOk_iff h duration).mpr hrec
      rw [record_apply, hend]
      simp

theorem enforce_of_not_recordable {fw : FirewallAdapter Φ Ω} {h : Host Ω} {ip : String}
    {duration : ℤ} {b : AutoBlocker Φ} (hrec : ¬ Recordable h duration)
    (haccepts : accepts fw h.outcomes ip b.firewall = true) :
    ∃ e, (enforce fw h ip duration b).1 = .error e := by
  have hrecord : ∀ status (b' : AutoBlocker Φ),
      ∃ e, record h status ip duration b' = (.error e, b') :=
    fun status b' => record_of_not_recordable hrec status ip b'
  unfold enforce
  rw [Effect.bind_of_ok (Effect.get_apply b)]
  cases hblocked : fw.isBlocked h.outcomes ip b.firewall with
  | true =>
    rw [if_pos rfl, Effect.bind_apply, grant_apply]
    split_ifs with hfits
    · simp only [Effect.bind_apply]
      obtain ⟨e, he⟩ := hrecord "already_blocked" { b with
        lastBlockTime := b.lastBlockTime.set ip h.clock.now
        blockedUntil := b.blockedUntil.set ip (h.clock.now + (max 1 duration : ℤ)) }
      exact ⟨e, by rw [he]⟩
    · exact ⟨.overflowError, rfl⟩
  | false =>
    have hok : (fw.blockIp h.outcomes ip b.firewall).1.1 = true := by
      simpa [accepts, hblocked] using haccepts
    rw [if_neg (by simp), Effect.bind_of_ok (Effect.modify_apply _ _), if_pos hok,
      Effect.bind_apply, grant_apply]
    split_ifs with hfits
    · simp only [Effect.bind_apply, Effect.modify_apply, record_apply]
      cases hend : recordedUntil h duration with
      | ok until_ => exact absurd ((recordedUntil_isOk_iff h duration).mp ⟨until_, hend⟩) hrec
      | error e => exact ⟨e, rfl⟩
    · exact ⟨.overflowError, rfl⟩

theorem enforce_of_refused {fw : FirewallAdapter Φ Ω} {h : Host Ω} {ip : String} {duration : ℤ}
    {b : AutoBlocker Φ} (haccepts : accepts fw h.outcomes ip b.firewall = false) :
    (enforce fw h ip duration b).1 = .ok (answerOf fw h.outcomes ip b.firewall) := by
  rw [accepts, Bool.or_eq_false_iff] at haccepts
  unfold enforce answerOf
  rw [Effect.bind_of_ok (Effect.get_apply b), haccepts.1, if_neg (by simp),
    Effect.bind_of_ok (Effect.modify_apply _ _), haccepts.2]
  rfl

/-- A block request past its checks returns exactly when the firewall refuses
the block or the deadline can be written down. -/
theorem enforce_returns_iff (fw : FirewallAdapter Φ Ω) (h : Host Ω) (ip : String) (duration : ℤ)
    (b : AutoBlocker Φ) :
    (∃ answer, (enforce fw h ip duration b).1 = .ok answer) ↔
      (accepts fw h.outcomes ip b.firewall = true → Recordable h duration) := by
  rcases em (Recordable h duration) with hrec | hrec
  · exact ⟨fun _ _ => hrec, fun _ => ⟨_, enforce_of_recordable fw ip b hrec⟩⟩
  · cases haccepts : accepts fw h.outcomes ip b.firewall with
    | false => exact ⟨fun _ hfalse => absurd hfalse (by simp), fun _ => ⟨_, enforce_of_refused haccepts⟩⟩
    | true =>
      obtain ⟨e, he⟩ := enforce_of_not_recordable hrec haccepts
      rw [he]
      simp [hrec]

/-! ## `temp_block` -/

@[simp] theorem tempBlock_none (h : Host Ω) (ip : String) (duration : ℤ) (b : AutoBlocker Φ) :
    tempBlock none h ip duration b = (.ok (false, "unsupported_platform"), b) := rfl

theorem tempBlock_of_invalid (fw : FirewallAdapter Φ Ω) (h : Host Ω) {ip : String} (duration : ℤ)
    (b : AutoBlocker Φ) (hip : isValidRoutableIp ip = false) :
    tempBlock (some fw) h ip duration b = (.ok (false, "invalid_or_loopback_ip"), b) := by
  unfold tempBlock
  rw [hip]
  rfl

/-- On a valid address the request sweeps first, and the sweep decides whether
the cooldown still applies. -/
theorem tempBlock_of_valid (fw : FirewallAdapter Φ Ω) (h : Host Ω) {ip : String} (duration : ℤ)
    (b : AutoBlocker Φ) (hip : isValidRoutableIp ip = true) :
    tempBlock (some fw) h ip duration b =
      if (expireBlocks (some fw) h b).coolingDown h.clock.now ip then
        (.ok (false, "cooldown_active"), expireBlocks (some fw) h b)
      else enforce fw h ip duration (expireBlocks (some fw) h b) := by
  unfold tempBlock
  rw [hip]
  show (Effect.modify (expireBlocks (some fw) h) >>= _) b = _
  rw [Effect.bind_of_ok (Effect.modify_apply _ _), Effect.bind_of_ok (Effect.get_apply _)]
  split_ifs <;> rfl

/-- The firewall ends up with a rule for the address: the request passes every
check of `temp_block` and the firewall does not refuse it. -/
def Enforceable (fw : Option (FirewallAdapter Φ Ω)) (h : Host Ω) (ip : String)
    (b : AutoBlocker Φ) : Prop :=
  match fw with
  | none => False
  | some adapter =>
    isValidRoutableIp ip = true ∧ (expireBlocks fw h b).coolingDown h.clock.now ip = false ∧
      accepts adapter h.outcomes ip (expireBlocks fw h b).firewall = true

instance (fw : Option (FirewallAdapter Φ Ω)) (h : Host Ω) (ip : String) (b : AutoBlocker Φ) :
    Decidable (Enforceable fw h ip b) :=
  match fw with
  | none => inferInstanceAs (Decidable False)
  | some _ => inferInstanceAs (Decidable (_ ∧ _ ∧ _))

/-- `temp_block` returns unless it enforces a block whose deadline is no date. -/
theorem tempBlock_returns_iff (fw : Option (FirewallAdapter Φ Ω)) (h : Host Ω) (ip : String)
    (duration : ℤ) (b : AutoBlocker Φ) :
    (∃ answer, (tempBlock fw h ip duration b).1 = .ok answer) ↔
      (Enforceable fw h ip b → Recordable h duration) := by
  cases fw with
  | none => exact ⟨fun _ henforce => henforce.elim, fun _ => ⟨_, rfl⟩⟩
  | some fw =>
    cases hip : isValidRoutableIp ip with
    | false =>
      rw [tempBlock_of_invalid fw h duration b hip]
      refine ⟨fun _ henforce => ?_, fun _ => ⟨_, rfl⟩⟩
      exact absurd (hip.symm.trans henforce.1) Bool.false_ne_true
    | true =>
      rw [tempBlock_of_valid fw h duration b hip]
      cases hcool : (expireBlocks (some fw) h b).coolingDown h.clock.now ip with
      | true =>
        rw [if_pos rfl]
        refine ⟨fun _ henforce => ?_, fun _ => ⟨_, rfl⟩⟩
        exact absurd (hcool.symm.trans henforce.2.1) Bool.noConfusion
      | false =>
        rw [if_neg Bool.false_ne_true, enforce_returns_iff]
        exact ⟨fun hrec henforce => hrec henforce.2.2, fun hrec haccepts =>
          hrec ⟨hip, hcool, haccepts⟩⟩

/-- An enforced block whose deadline is no date ends in an exception. -/
theorem tempBlock_raises {fw : Option (FirewallAdapter Φ Ω)} {h : Host Ω} {ip : String}
    {duration : ℤ} {b : AutoBlocker Φ} (henforce : Enforceable fw h ip b)
    (hrec : ¬ Recordable h duration) : ∃ e b', tempBlock fw h ip duration b = (.error e, b') := by
  cases hrun : tempBlock fw h ip duration b with
  | mk result b' =>
    cases result with
    | error e => exact ⟨e, b', rfl⟩
    | ok answer =>
      have hreturns := (tempBlock_returns_iff fw h ip duration b).mp ⟨answer, by rw [hrun]⟩
      exact absurd (hreturns henforce) hrec

/-- The deadline of a block of at most a day is a date. -/
theorem recordable_of_day (h : Host Ω) {duration : ℤ} (hday : duration ≤ 86400) :
    Recordable h duration := by
  intro _
  have hlt := h.clock.publishTime_lt
  have hle := h.clock.recordTime_le_publishTime
  have hday' : (duration : ℚ) ≤ 86400 := by exact_mod_cast hday
  linarith

/-- A block of at most a day never raises. -/
theorem tempBlock_ensures (fw : Option (FirewallAdapter Φ Ω)) (h : Host Ω) (ip : String)
    {duration : ℤ} (hday : duration ≤ 86400) (b : AutoBlocker Φ) :
    Effect.Ensures (tempBlock fw h ip duration) b fun _ _ => True := by
  obtain ⟨answer, hok⟩ := (tempBlock_returns_iff fw h ip duration b).mpr
    fun _ => recordable_of_day h hday
  exact ⟨answer, _, Prod.ext hok rfl, trivial⟩

/-! ## What a block request does to the ledger -/

/-- The ledger without the deadlines that have passed. -/
theorem blockedUntil_expireBlocks (fw : FirewallAdapter Φ Ω) (h : Host Ω) (b : AutoBlocker Φ) :
    (expireBlocks (some fw) h b).blockedUntil =
      b.blockedUntil.filter fun e => h.clock.expireTime < e.2 := by
  apply Dict.ext
  unfold expireBlocks
  rw [blockedUntil_foldl_expireOne, Dict.entries_foldl_erase]
  apply List.filter_congr
  intro e he
  have hget : b.blockedUntil.get? e.1 = some e.2 := (Dict.get?_eq_some_iff _ _ _).mpr he
  have hiff : e.1 ∈ b.expired h.clock.expireTime ↔ e.2 ≤ h.clock.expireTime := by
    rw [mem_expired_iff, hget]
    simp
  simp [hiff]

/-- The ledger after a block request, and whether the request was granted. -/
inductive Requested (fw : Option (FirewallAdapter Φ Ω)) (h : Host Ω) (ip : String) (duration : ℤ)
    (b : AutoBlocker Φ) : Bool → Dict String Time → Prop where
  | unasked (hnone : fw = none ∨ isValidRoutableIp ip = false) :
    Requested fw h ip duration b false b.blockedUntil
  | refused (hip : isValidRoutableIp ip = true) (hfw : fw.isSome) :
    Requested fw h ip duration b false
      (b.blockedUntil.filter fun e => h.clock.expireTime < e.2)
  | granted (hip : isValidRoutableIp ip = true) (hfw : fw.isSome) :
    Requested fw h ip duration b true
      ((b.blockedUntil.filter fun e => h.clock.expireTime < e.2).set ip
        (h.clock.now + (max 1 duration : ℤ)))

/-- The answer to a request is whether the firewall has the rule at the end. -/
theorem answerOf_fst (fw : FirewallAdapter Φ Ω) (o : Ω) (ip : String) (φ : Φ) :
    (answerOf fw o ip φ).1 = accepts fw o ip φ := by
  unfold answerOf accepts
  split_ifs with hblocked
  · rw [hblocked]
    rfl
  · rw [Bool.not_eq_true] at hblocked
    rw [hblocked]
    rfl

/-- A request that returns says whether it was granted. -/
theorem tempBlock_requested (fw : Option (FirewallAdapter Φ Ω)) (h : Host Ω) (ip : String)
    {duration : ℤ} {b : AutoBlocker Φ} (hrec : Enforceable fw h ip b → Recordable h duration) :
    Effect.Ensures (tempBlock fw h ip duration) b fun answer b' =>
      Requested fw h ip duration b answer.1 b'.blockedUntil := by
  cases fw with
  | none => exact ⟨_, _, rfl, .unasked (Or.inl rfl)⟩
  | some fw =>
    cases hip : isValidRoutableIp ip with
    | false => exact ⟨_, _, tempBlock_of_invalid fw h duration b hip, .unasked (Or.inr hip)⟩
    | true =>
      have hswept := blockedUntil_expireBlocks fw h b
      have hcall := tempBlock_of_valid fw h duration b hip
      cases hcool : (expireBlocks (some fw) h b).coolingDown h.clock.now ip with
      | true =>
        rw [hcool, if_pos rfl] at hcall
        refine ⟨_, _, hcall, ?_⟩
        show Requested (some fw) h ip duration b false (expireBlocks (some fw) h b).blockedUntil
        rw [hswept]
        exact .refused hip rfl
      | false =>
        rw [hcool, if_neg Bool.false_ne_true] at hcall
        have hledger := (enforced fw h ip duration (expireBlocks (some fw) h b)).blockedUntil
        have hgrants := answerOf_fst fw h.outcomes ip (expireBlocks (some fw) h b).firewall
        cases haccepts : accepts fw h.outcomes ip (expireBlocks (some fw) h b).firewall with
        | true =>
          have hdate := hrec ⟨hip, hcool, haccepts⟩
          have hanswer := enforce_of_recordable fw ip (expireBlocks (some fw) h b) hdate
          rw [haccepts, if_pos ⟨rfl, hdate.fitsDouble⟩, hswept] at hledger
          refine ⟨_, _, hcall.trans (Prod.ext hanswer rfl), ?_⟩
          show Requested (some fw) h ip duration b (answerOf _ _ _ _).1 _
          rw [hgrants, haccepts, hledger]
          exact .granted hip rfl
        | false =>
          have hanswer : (enforce fw h ip duration (expireBlocks (some fw) h b)).1 =
              .ok (answerOf fw h.outcomes ip (expireBlocks (some fw) h b).firewall) :=
            enforce_of_refused haccepts
          rw [haccepts, if_neg fun hboth => Bool.false_ne_true hboth.1, hswept] at hledger
          refine ⟨_, _, hcall.trans (Prod.ext hanswer rfl), ?_⟩
          show Requested (some fw) h ip duration b (answerOf _ _ _ _).1 _
          rw [hgrants, haccepts, hledger]
          exact .refused hip rfl

/-- The ledger after a request that the firewall accepts, whether or not the
request returns. -/
theorem blockedUntil_tempBlock_of_enforceable {fw : FirewallAdapter Φ Ω} {h : Host Ω}
    {ip : String} {b : AutoBlocker Φ} (henforce : Enforceable (some fw) h ip b) (duration : ℤ) :
    (tempBlock (some fw) h ip duration b).2.blockedUntil =
      if FitsDouble (max 1 duration) then
        (b.blockedUntil.filter fun e => h.clock.expireTime < e.2).set ip
          (h.clock.now + (max 1 duration : ℤ))
      else b.blockedUntil.filter fun e => h.clock.expireTime < e.2 := by
  obtain ⟨hip, hcool, haccepts⟩ := henforce
  rw [tempBlock_of_valid fw h duration b hip, hcool, if_neg Bool.false_ne_true,
    (enforced fw h ip duration _).blockedUntil, blockedUntil_expireBlocks, haccepts]
  rcases em (FitsDouble (max 1 duration)) with hfits | hfits
  · rw [if_pos ⟨rfl, hfits⟩, if_pos hfits]
  · rw [if_neg fun hboth => hfits hboth.2, if_neg hfits]

/-- An unblock drops the deadline of the address exactly when it succeeds. -/
theorem blockedUntil_manualUnblock (fw : Option (FirewallAdapter Φ Ω)) (h : Host Ω) (ip : String)
    (b : AutoBlocker Φ) :
    (manualUnblock fw h ip b).2.blockedUntil =
      if (manualUnblock fw h ip b).1.1 then b.blockedUntil.erase ip else b.blockedUntil := by
  unfold manualUnblock
  cases fw with
  | none => rfl
  | some fw =>
    simp only
    cases isValidRoutableIp ip with
    | false => rfl
    | true =>
      simp only [if_true]
      cases hok : (fw.unblockIp h.outcomes ip b.firewall).1.1 with
      | false => simp [hok]
      | true => simp [hok, appendRecord, recordDetectionActivity]

end AutoBlocker

end SmartIDS.ResponseEngine
