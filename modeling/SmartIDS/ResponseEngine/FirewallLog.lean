import SmartIDS.ResponseEngine.BlockerSpec
set_option autoImplicit false

/-!
# ResponseEngine: the calls the blocker makes to its firewall

An adapter can be wrapped so that the requests made to it are written down in
the state of the firewall.  A blocker over the wrapped adapter goes through the
states it would go through anyway (`forget_exec`), and its firewall carries the
history of its requests, to which the ledger can be compared.
-/

namespace SmartIDS.ResponseEngine

open SmartIDS.Foundation SmartIDS.PacketCapture SmartIDS.Python

/-- The two requests that change the firewall. -/
inductive Request where
  | block
  | unblock
  deriving DecidableEq, Repr

/-- A call of `block_ip` or `unblock_ip`, with its result and the time at which
the method that made it read the clock. -/
structure FirewallCall where
  request : Request
  ip : String
  ok : Bool
  time : Time
  deriving DecidableEq

namespace FirewallCall

/-- A successful `block_ip` for this address. -/
def Blocks (ip : String) (c : FirewallCall) : Prop :=
  c.request = .block ∧ c.ip = ip ∧ c.ok = true

/-- An attempt to unblock this address, successful or not. -/
def Unblocks (ip : String) (c : FirewallCall) : Prop := c.request = .unblock ∧ c.ip = ip

instance (ip : String) (c : FirewallCall) : Decidable (c.Blocks ip) :=
  inferInstanceAs (Decidable (_ ∧ _))

instance (ip : String) (c : FirewallCall) : Decidable (c.Unblocks ip) :=
  inferInstanceAs (Decidable (_ ∧ _))

end FirewallCall

/-! ## The standing block of an address -/

/-- The last successful block of the address that no unblock attempt has followed
was made at `t`. -/
def Standing (log : List FirewallCall) (ip : String) (t : Time) : Prop :=
  ∃ before c after, log = before ++ c :: after ∧ c.Blocks ip ∧ c.time = t ∧
    ∀ u ∈ after, ¬ u.Unblocks ip

/-- Two successful blocks of an address less than the cooldown apart have an
unblock attempt between them. -/
def Cooled (cooldown : Time) (log : List FirewallCall) : Prop :=
  ∀ before c between c' after, log = before ++ c :: between ++ c' :: after →
    ∀ ip, c.Blocks ip → c'.Blocks ip → c'.time - c.time < cooldown →
      ∃ u ∈ between, u.Unblocks ip

theorem not_standing_nil (ip : String) (t : Time) : ¬ Standing [] ip t := by
  rintro ⟨before, c, after, hsplit, -⟩
  simp at hsplit

theorem cooled_nil (cooldown : Time) : Cooled cooldown [] := by
  intro before c between c' after hsplit
  simp at hsplit

/-- One call more: the block stands through any call but an unblock attempt, and
a successful block starts to stand. -/
theorem standing_concat {log : List FirewallCall} {c : FirewallCall} {ip : String} {t : Time}
    (h : Standing (log ++ [c]) ip t) :
    (c.Blocks ip ∧ c.time = t) ∨ (Standing log ip t ∧ ¬ c.Unblocks ip) := by
  obtain ⟨before, d, after, hsplit, hblocks, htime, hafter⟩ := h
  rcases List.eq_nil_or_concat after with rfl | ⟨rest, e, rfl⟩
  · have hlast := List.append_inj_right' hsplit rfl
    rw [List.cons.injEq] at hlast
    rw [hlast.1]
    exact Or.inl ⟨hblocks, htime⟩
  · right
    rw [List.concat_eq_append, ← List.cons_append, ← List.append_assoc] at hsplit
    obtain ⟨hlog, hlast⟩ := List.append_inj' hsplit rfl
    rw [List.cons.injEq] at hlast
    refine ⟨⟨before, d, rest, hlog, hblocks, htime, fun u hu => hafter u ?_⟩, ?_⟩
    · rw [List.concat_eq_append]
      exact List.mem_append_left _ hu
    · rw [hlast.1]
      exact hafter e (by rw [List.concat_eq_append]; simp)

/-- A further call keeps the log cooled unless it blocks an address whose block
has stood for less than the cooldown. -/
theorem Cooled.concat {cooldown : Time} {log : List FirewallCall} {c : FirewallCall}
    (h : Cooled cooldown log)
    (hlate : ∀ ip t, c.Blocks ip → Standing log ip t → cooldown ≤ c.time - t) :
    Cooled cooldown (log ++ [c]) := by
  intro before d between d' after hsplit ip hd hd' hclose
  rcases List.eq_nil_or_concat after with rfl | ⟨rest, e, rfl⟩
  · obtain ⟨hlog, hlast⟩ := List.append_inj' hsplit rfl
    rw [List.cons.injEq] at hlast
    by_contra hnone
    push Not at hnone
    have hstanding : Standing log ip d.time := ⟨before, d, between, hlog, hd, rfl, hnone⟩
    rw [← hlast.1] at hd' hclose
    exact absurd hclose (not_lt.mpr (hlate ip d.time hd' hstanding))
  · rw [List.concat_eq_append, ← List.cons_append, ← List.append_assoc] at hsplit
    exact h before d between d' rest (List.append_inj' hsplit rfl).1 ip hd hd' hclose

/-! ## The recording adapter -/

/-- The adapter that writes its requests down.  The time is passed in with the
outcomes. -/
def recording {Φ Ω : Type} (fw : FirewallAdapter Φ Ω) :
    FirewallAdapter (Φ × List FirewallCall) (Ω × Time) where
  blockIp o ip φ :=
    let (answer, firewall) := fw.blockIp o.1 ip φ.1
    (answer, firewall, φ.2 ++ [⟨.block, ip, answer.1, o.2⟩])
  unblockIp o ip φ :=
    let (answer, firewall) := fw.unblockIp o.1 ip φ.1
    (answer, firewall, φ.2 ++ [⟨.unblock, ip, answer.1, o.2⟩])
  isBlocked o ip φ := fw.isBlocked o.1 ip φ.1

/-- The host with its time passed to the adapter. -/
def Host.dated {Ω : Type} (h : Host Ω) : Host (Ω × Time) := ⟨h.clock, h.outcomes, h.clock.now⟩

namespace AutoBlocker

variable {Φ Ω : Type}

/-- The blocker without the record of its requests. -/
def forget (b : AutoBlocker (Φ × List FirewallCall)) : AutoBlocker Φ where
  firewall := b.firewall.1
  lastBlockTime := b.lastBlockTime
  blockedUntil := b.blockedUntil
  blockCounts := b.blockCounts
  watchlistedIps := b.watchlistedIps
  records := b.records
  activity := b.activity

/-- The requests made so far. -/
def log (b : AutoBlocker (Φ × List FirewallCall)) : List FirewallCall := b.firewall.2

/-- The same operation, its time passed to the adapter. -/
def Operation.dated : Operation Ω → Operation (Ω × Time)
  | .tempBlock h ip duration => .tempBlock h.dated ip duration
  | .manualBlock h ip duration => .manualBlock h.dated ip duration
  | .manualUnblock h ip => .manualUnblock h.dated ip
  | .expireBlocks h => .expireBlocks h.dated

/-- The blocker after some operations, with the record of its requests. -/
def recorded (fw : Option (FirewallAdapter Φ Ω)) (firewall : Φ) (ops : List (Operation Ω)) :
    AutoBlocker (Φ × List FirewallCall) :=
  (machine (fw.map recording)).exec (init (firewall, [])) (ops.map Operation.dated)

/-! ### Recording changes nothing -/

theorem forget_foldl_expireOne (fw : FirewallAdapter Φ Ω) (h : Host Ω) (ips : List String)
    (b : AutoBlocker (Φ × List FirewallCall)) :
    (ips.foldl (expireOne (recording fw) h.dated) b).forget =
      ips.foldl (expireOne fw h) b.forget := by
  induction ips generalizing b with
  | nil => rfl
  | cons ip ips ih => exact ih (expireOne (recording fw) h.dated b ip)

theorem forget_expireBlocks (fw : Option (FirewallAdapter Φ Ω)) (h : Host Ω)
    (b : AutoBlocker (Φ × List FirewallCall)) :
    (expireBlocks (fw.map recording) h.dated b).forget = expireBlocks fw h b.forget := by
  cases fw with
  | none => rfl
  | some fw => exact forget_foldl_expireOne fw h _ b

/-- A method over the recording adapter does what the other does without it. -/
def Forgets {α : Type} (x' : Effect PyError (AutoBlocker (Φ × List FirewallCall)) α)
    (x : Effect PyError (AutoBlocker Φ) α) : Prop :=
  ∀ b, x b.forget = ((x' b).1, (x' b).2.forget)

namespace Forgets

variable {α β : Type}

theorem pure (a : α) : Forgets (Φ := Φ) (Pure.pure a) (Pure.pure a) := fun _ => rfl

theorem modify {f' : AutoBlocker (Φ × List FirewallCall) → AutoBlocker (Φ × List FirewallCall)}
    {f : AutoBlocker Φ → AutoBlocker Φ} (h : ∀ b, f b.forget = (f' b).forget) :
    Forgets (Effect.modify f') (Effect.modify f) := by
  intro b
  rw [Effect.modify_apply, Effect.modify_apply, h]

theorem bind {x' : Effect PyError (AutoBlocker (Φ × List FirewallCall)) α}
    {x : Effect PyError (AutoBlocker Φ) α}
    {g' : α → Effect PyError (AutoBlocker (Φ × List FirewallCall)) β}
    {g : α → Effect PyError (AutoBlocker Φ) β} (hx : Forgets x' x)
    (hg : ∀ a, Forgets (g' a) (g a)) : Forgets (x' >>= g') (x >>= g) := by
  intro b
  rw [Effect.bind_apply, Effect.bind_apply, hx]
  match x' b with
  | (.ok a, t) => exact hg a t
  | (.error e, t) => rfl

theorem record (h : Host Ω) (status ip : String) (duration : ℤ) :
    Forgets (Φ := Φ) (AutoBlocker.record h.dated status ip duration)
      (AutoBlocker.record h status ip duration) := by
  intro b
  have hsame : recordedUntil h.dated duration = recordedUntil h duration := rfl
  rw [record_apply, record_apply, hsame]
  cases recordedUntil h duration <;> rfl

theorem grant (h : Host Ω) (ip : String) (duration : ℤ) :
    Forgets (Φ := Φ) (AutoBlocker.grant h.dated ip duration)
      (AutoBlocker.grant h ip duration) := by
  intro b
  rw [grant_apply, grant_apply]
  split_ifs <;> rfl

theorem enforce (fw : FirewallAdapter Φ Ω) (h : Host Ω) (ip : String) (duration : ℤ) :
    Forgets (AutoBlocker.enforce (recording fw) h.dated ip duration)
      (AutoBlocker.enforce fw h ip duration) := by
  intro b
  unfold AutoBlocker.enforce
  rw [Effect.bind_of_ok (Effect.get_apply _), Effect.bind_of_ok (Effect.get_apply _)]
  have hsame : (recording fw).isBlocked h.dated.outcomes ip b.firewall =
      fw.isBlocked h.outcomes ip b.forget.firewall := rfl
  rw [hsame]
  cases fw.isBlocked h.outcomes ip b.forget.firewall with
  | true =>
    rw [if_pos rfl, if_pos rfl]
    refine bind (grant h ip duration) (fun _ => ?_) b
    refine bind (record h "already_blocked" ip duration) fun _ => ?_
    exact bind (modify fun _ => rfl) fun _ => pure _
  | false =>
    rw [if_neg Bool.false_ne_true, if_neg Bool.false_ne_true]
    refine bind (modify fun _ => rfl) (fun _ => ?_) b
    have hanswer : ((recording fw).blockIp h.dated.outcomes ip b.firewall).1 =
        (fw.blockIp h.outcomes ip b.forget.firewall).1 := rfl
    rw [hanswer]
    cases (fw.blockIp h.outcomes ip b.forget.firewall).1.1 with
    | true =>
      rw [if_pos rfl, if_pos rfl]
      refine bind (grant h ip duration) fun _ => ?_
      refine bind (modify fun _ => rfl) fun _ => ?_
      refine bind (record h _ ip duration) fun _ => ?_
      exact bind (modify fun _ => rfl) fun _ => pure _
    | false =>
      rw [if_neg Bool.false_ne_true, if_neg Bool.false_ne_true]
      exact pure _

theorem tempBlock (fw : Option (FirewallAdapter Φ Ω)) (h : Host Ω) (ip : String) (duration : ℤ) :
    Forgets (AutoBlocker.tempBlock (fw.map recording) h.dated ip duration)
      (AutoBlocker.tempBlock fw h ip duration) := by
  intro b
  cases fw with
  | none => rfl
  | some fw =>
    cases hip : isValidRoutableIp ip with
    | false =>
      rw [tempBlock_of_invalid fw h duration _ hip, Option.map_some,
        tempBlock_of_invalid (recording fw) h.dated duration b hip]
    | true =>
      have hswept := forget_expireBlocks (some fw) h b
      rw [Option.map_some] at hswept ⊢
      rw [tempBlock_of_valid fw h duration _ hip,
        tempBlock_of_valid (recording fw) h.dated duration b hip, ← hswept]
      have hcool : (expireBlocks (some (recording fw)) h.dated b).forget.coolingDown
          h.clock.now ip = (expireBlocks (some (recording fw)) h.dated b).coolingDown
            h.dated.clock.now ip := rfl
      rw [hcool]
      split_ifs
      · rfl
      · exact Forgets.enforce fw h ip duration _

end Forgets

theorem forget_manualUnblock (fw : Option (FirewallAdapter Φ Ω)) (h : Host Ω) (ip : String)
    (b : AutoBlocker (Φ × List FirewallCall)) :
    (manualUnblock (fw.map recording) h.dated ip b).2.forget =
      (manualUnblock fw h ip b.forget).2 := by
  cases fw with
  | none => rfl
  | some fw =>
    unfold manualUnblock
    simp only [Option.map_some]
    cases isValidRoutableIp ip with
    | false => rfl
    | true =>
      have hsame : ((recording fw).unblockIp h.dated.outcomes ip b.firewall).1 =
          (fw.unblockIp h.outcomes ip b.forget.firewall).1 := rfl
      simp only [if_true, hsame]
      split_ifs <;> rfl

theorem forget_step (fw : Option (FirewallAdapter Φ Ω)) (op : Operation Ω)
    (b : AutoBlocker (Φ × List FirewallCall)) :
    ((machine (fw.map recording)).step b op.dated).1.forget =
      ((machine fw).step b.forget op).1 := by
  cases op with
  | tempBlock h ip duration => exact (congrArg Prod.snd (Forgets.tempBlock fw h ip duration b)).symm
  | manualBlock h ip duration =>
    exact (congrArg Prod.snd (Forgets.tempBlock fw h ip duration b)).symm
  | manualUnblock h ip => exact forget_manualUnblock fw h ip b
  | expireBlocks h => exact forget_expireBlocks fw h b

/-- The recorded blocker is the blocker. -/
theorem forget_recorded (fw : Option (FirewallAdapter Φ Ω)) (firewall : Φ)
    (ops : List (Operation Ω)) :
    (recorded fw firewall ops).forget = (machine fw).exec (init firewall) ops := by
  unfold recorded
  induction ops using List.reverseRecOn with
  | nil => rfl
  | append_singleton ops op ih =>
    rw [List.map_append, List.map_singleton, Machine.exec_concat, Machine.exec_concat,
      forget_step, ih]

end AutoBlocker

end SmartIDS.ResponseEngine
