import Mathlib.Data.List.Basic
set_option autoImplicit false

/-!
# ResponseEngine: firewall adapters

`response_engine/firewall`.  An adapter turns three requests into commands run
in a subprocess.  A command that cannot be run, or that the firewall rejects,
reports failure; the adapters swallow every exception, so none of the requests
raises.

`FirewallAdapter` leaves the firewall's own state and the outcomes of the
commands open; `linuxAdapter` is the `iptables` one.
-/

namespace SmartIDS.ResponseEngine

/-- The interface of `firewall/base.py`.  `Φ` is the state of the firewall, `Ω`
what decides the outcomes of the commands issued during one call. -/
structure FirewallAdapter (Φ Ω : Type) where
  blockIp : Ω → String → Φ → (Bool × String) × Φ
  unblockIp : Ω → String → Φ → (Bool × String) × Φ
  isBlocked : Ω → String → Φ → Bool

/-- A `DROP` rule for one source address in the `INPUT` chain; `own` marks the
rules appended by the engine. -/
structure Rule where
  source : String
  own : Bool
  deriving DecidableEq, Repr

abbrev Chain : Type := List Rule

/-- The `iptables` commands of the Linux adapter, for one source address. -/
inductive Command where
  | check (ip : String)
  | append (ip : String)
  | delete (ip : String)

/-- Which of the commands issued during one call the host manages to run.  Every
address meets each of them at most once. -/
structure CommandOutcomes where
  /-- the `-C` of `is_blocked` -/
  check : String → Bool
  /-- the `-C` of `block_ip` -/
  recheck : String → Bool
  append : String → Bool
  delete : String → Bool

/-- Every command runs. -/
def CommandOutcomes.allRun : CommandOutcomes := ⟨fun _ => true, fun _ => true, fun _ => true, fun _ => true⟩

/-- Whether the chain has a rule for an address. -/
def Chain.hasRule (c : Chain) (ip : String) : Bool := c.any (·.source = ip)

/-- `_run`: the exit status of a command and the chain it leaves.  `-D` deletes
the first rule that matches. -/
def run (succeeds : Bool) : Command → Chain → Bool × Chain
  | .check ip, c => (succeeds && c.hasRule ip, c)
  | .append ip, c => if succeeds then (true, c ++ [⟨ip, true⟩]) else (false, c)
  | .delete ip, c =>
    if succeeds && c.hasRule ip then (true, c.eraseP (·.source = ip)) else (false, c)

/-- `LinuxFirewallAdapter`. -/
def linuxAdapter : FirewallAdapter Chain CommandOutcomes where
  blockIp o ip c :=
    if (run (o.recheck ip) (.check ip) c).1 then ((true, "already_blocked"), c)
    else
      match run (o.append ip) (.append ip) c with
      | (true, c') => ((true, "blocked"), c')
      | (false, c') => ((false, "block_failed"), c')
  unblockIp o ip c :=
    match run (o.delete ip) (.delete ip) c with
    | (true, c') => ((true, "unblocked"), c')
    | (false, c') => ((false, "unblock_failed"), c')
  isBlocked o ip c := (run (o.check ip) (.check ip) c).1

theorem linuxAdapter_unblockIp (o : CommandOutcomes) (ip : String) (c : Chain) :
    linuxAdapter.unblockIp o ip c =
      if o.delete ip && c.hasRule ip then ((true, "unblocked"), c.eraseP (·.source = ip))
      else ((false, "unblock_failed"), c) := by
  show (match run (o.delete ip) (.delete ip) c with
    | (true, c') => ((true, "unblocked"), c')
    | (false, c') => ((false, "unblock_failed"), c')) = _
  cases hrun : o.delete ip && c.hasRule ip <;> simp only [run, hrun] <;> rfl

theorem linuxAdapter_blockIp (o : CommandOutcomes) (ip : String) (c : Chain) :
    linuxAdapter.blockIp o ip c =
      if o.recheck ip && c.hasRule ip then ((true, "already_blocked"), c)
      else if o.append ip then ((true, "blocked"), c ++ [⟨ip, true⟩])
      else ((false, "block_failed"), c) := by
  show (if o.recheck ip && c.hasRule ip then ((true, "already_blocked"), c)
    else
      match run (o.append ip) (.append ip) c with
      | (true, c') => ((true, "blocked"), c')
      | (false, c') => ((false, "block_failed"), c')) = _
  cases happend : o.append ip <;> rfl

end SmartIDS.ResponseEngine
