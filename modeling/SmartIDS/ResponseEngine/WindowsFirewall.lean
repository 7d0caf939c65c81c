import Mathlib.Data.List.Infix
import Mathlib.Data.Set.Insert
import SmartIDS.ResponseEngine.Firewall
set_option autoImplicit false

/-!
# ResponseEngine: the Windows adapter

`firewall/windows_adapter.py`.  The processes of `netsh` that a call starts are given to the
adapter, and so is the state they work on.  What is relied on of them is `Documented`, over
the rules that a firewall has.
-/

namespace SmartIDS.ResponseEngine

/-- What `subprocess.run` returns. -/
structure CompletedProcess where
  returncode : ℤ
  stdout : Option String

/-- The processes of one call, each from its command; `none` where `subprocess.run` raises.
`show` leaves the firewall as it is. -/
structure NetshOutcomes (Φ : Type) where
  /-- the `show` of `is_blocked` -/
  check : List String → Φ → Option CompletedProcess
  /-- the `show` of `block_ip` -/
  recheck : List String → Φ → Option CompletedProcess
  add : List String → Φ → Option CompletedProcess × Φ
  delete : List String → Φ → Option CompletedProcess × Φ

namespace WindowsFirewallAdapter

/-- `RULE_PREFIX`. -/
def rulePrefix : String := "SmartIDS_Block_"

/-- `_rule_name`. -/
def ruleName (ip : String) : String := rulePrefix ++ ip

def addCommand (ruleName ip : String) : List String :=
  ["netsh", "advfirewall", "firewall", "add", "rule", "name=" ++ ruleName, "dir=in",
    "action=block", "remoteip=" ++ ip, "enable=yes"]

def deleteCommand (ruleName : String) : List String :=
  ["netsh", "advfirewall", "firewall", "delete", "rule", "name=" ++ ruleName]

def showCommand (ruleName : String) : List String :=
  ["netsh", "advfirewall", "firewall", "show", "rule", "name=" ++ ruleName]

variable {Φ : Type}

/-- `_run`. -/
def runNetsh (netsh : List String → Φ → Option CompletedProcess × Φ) (command : List String)
    (φ : Φ) : Bool × Φ :=
  match netsh command φ with
  | (some result, φ') => (result.returncode == 0, φ')
  | (none, φ') => (false, φ')

/-- `is_blocked`. -/
def isBlocked (netsh : List String → Φ → Option CompletedProcess) (ip : String) (φ : Φ) : Bool :=
  match netsh (showCommand (ruleName ip)) φ with
  | some result =>
    result.returncode == 0 && decide ((ruleName ip).toList <:+: (result.stdout.getD "").toList)
  | none => false

end WindowsFirewallAdapter

open WindowsFirewallAdapter in
/-- `WindowsFirewallAdapter`. -/
def windowsAdapter {Φ : Type} : FirewallAdapter Φ (NetshOutcomes Φ) where
  blockIp o ip φ :=
    if isBlocked o.recheck ip φ then ((true, "already_blocked"), φ)
    else
      match runNetsh o.add (addCommand (ruleName ip) ip) φ with
      | (true, φ') => ((true, "blocked"), φ')
      | (false, φ') => ((false, "block_failed"), φ')
  unblockIp o ip φ :=
    match runNetsh o.delete (deleteCommand (ruleName ip)) φ with
    | (true, φ') => ((true, "unblocked"), φ')
    | (false, φ') => ((false, "unblock_failed"), φ')
  isBlocked o ip φ := isBlocked o.check ip φ

/-! ## What is relied on of `netsh` -/

/-- A rule that blocks what comes from an address. -/
structure NamedRule where
  name : String
  remoteIp : String
  deriving DecidableEq

section documented

open WindowsFirewallAdapter

variable {Φ : Type} (rules : Φ → Set NamedRule)

/-- There is a rule with the name for an address. -/
def HasRule (blocks : Set NamedRule) (ip : String) : Prop := ∃ r ∈ blocks, r.name = ruleName ip

/-- `show` exits with 0 only if there is a rule with the name, which it then prints. -/
def Shows (netsh : List String → Φ → Option CompletedProcess) : Prop :=
  ∀ (name : String) (φ : Φ) (result : CompletedProcess),
    netsh (showCommand name) φ = some result → result.returncode = 0 →
      (∃ r ∈ rules φ, r.name = name) ∧
        ∃ text, result.stdout = some text ∧ name.toList <:+: text.toList

/-- The documented behaviour of the processes, with names compared as they are written: `add`
adds a rule also where one has its name, and `delete` removes every rule with the name, of
which there has to be one.  A command that fails changes no rule. -/
structure NetshOutcomes.Documented (o : NetshOutcomes Φ) : Prop where
  check : Shows rules o.check
  recheck : Shows rules o.recheck
  add_succeeds : ∀ (name ip : String) (φ : Φ), (runNetsh o.add (addCommand name ip) φ).1 = true →
    rules (runNetsh o.add (addCommand name ip) φ).2 = insert ⟨name, ip⟩ (rules φ)
  add_fails : ∀ (name ip : String) (φ : Φ), (runNetsh o.add (addCommand name ip) φ).1 = false →
    rules (runNetsh o.add (addCommand name ip) φ).2 = rules φ
  delete_finds : ∀ (name : String) (φ : Φ), (runNetsh o.delete (deleteCommand name) φ).1 = true →
    ∃ r ∈ rules φ, r.name = name
  delete_succeeds : ∀ (name : String) (φ : Φ), (runNetsh o.delete (deleteCommand name) φ).1 = true →
    rules (runNetsh o.delete (deleteCommand name) φ).2 = {r ∈ rules φ | r.name ≠ name}
  delete_fails : ∀ (name : String) (φ : Φ), (runNetsh o.delete (deleteCommand name) φ).1 = false →
    rules (runNetsh o.delete (deleteCommand name) φ).2 = rules φ

end documented

namespace WindowsFirewallAdapter

theorem ruleName_injective : Function.Injective ruleName :=
  fun _ _ h => (String.append_right_inj rulePrefix).mp h

variable {Φ : Type} {rules : Φ → Set NamedRule}

/-- The text only confirms the exit status. -/
theorem hasRule_of_isBlocked {netsh : List String → Φ → Option CompletedProcess}
    (h : Shows rules netsh) {ip : String} {φ : Φ} (hblocked : isBlocked netsh ip φ = true) :
    HasRule (rules φ) ip := by
  unfold isBlocked at hblocked
  split at hblocked
  · next result hresult =>
    rw [Bool.and_eq_true, beq_iff_eq] at hblocked
    exact (h _ φ result hresult hblocked.1).1
  · cases hblocked

/-- A `show` that runs and exits with 0 finds the address blocked. -/
theorem isBlocked_of_runs {netsh : List String → Φ → Option CompletedProcess}
    (h : Shows rules netsh) {ip : String} {φ : Φ} {result : CompletedProcess}
    (hruns : netsh (showCommand (ruleName ip)) φ = some result) (hzero : result.returncode = 0) :
    isBlocked netsh ip φ = true := by
  obtain ⟨-, text, htext, hinfix⟩ := h _ φ result hruns hzero
  unfold isBlocked
  rw [hruns]
  dsimp only
  rw [hzero, htext, Option.getD_some, decide_eq_true hinfix]
  rfl

theorem windowsAdapter_blockIp (o : NetshOutcomes Φ) (ip : String) (φ : Φ) :
    windowsAdapter.blockIp o ip φ =
      if isBlocked o.recheck ip φ then ((true, "already_blocked"), φ)
      else
        let added := runNetsh o.add (addCommand (ruleName ip) ip) φ
        if added.1 then ((true, "blocked"), added.2) else ((false, "block_failed"), added.2) := by
  unfold windowsAdapter
  dsimp only
  generalize runNetsh o.add (addCommand (ruleName ip) ip) φ = added
  obtain ⟨succeeded, φ'⟩ := added
  cases succeeded <;> rfl

theorem windowsAdapter_unblockIp (o : NetshOutcomes Φ) (ip : String) (φ : Φ) :
    windowsAdapter.unblockIp o ip φ =
      let deleted := runNetsh o.delete (deleteCommand (ruleName ip)) φ
      if deleted.1 then ((true, "unblocked"), deleted.2)
      else ((false, "unblock_failed"), deleted.2) := by
  unfold windowsAdapter
  dsimp only
  generalize runNetsh o.delete (deleteCommand (ruleName ip)) φ = deleted
  obtain ⟨succeeded, φ'⟩ := deleted
  cases succeeded <;> rfl

end WindowsFirewallAdapter

end SmartIDS.ResponseEngine
