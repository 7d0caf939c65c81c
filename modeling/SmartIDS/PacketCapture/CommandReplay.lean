import SmartIDS.PacketCapture.CommandSpec
import SmartIDS.PacketCapture.ProcessSpec
import SmartIDS.PacketCapture.SavedState
set_option autoImplicit false

/-!
# PacketCapture: redelivered commands

The lifetime of an engine over its command file: commands and packets in any order,
saves that come as far as they come, and restarts that keep the firewall and the file
and forget the rest.  Elsewhere the file of a command is taken to be written
(`PacketProcessor.applyBackendCommand`); here the save may raise, behind the blocker
and behind the id in memory, and in front of the block event.

Seen from its store, an engine is a `SavedCommands` under the ids of the commands that
take effect; whether a redelivery takes effect again is read off what that store
remembers.
-/

namespace SmartIDS.PacketCapture

open SmartIDS.Foundation SmartIDS.Python SmartIDS.ResponseEngine BackendCommand

variable {Φ Ω : Type} {repr : Json → String}

/-! ## The commands that take effect -/

/-- `id`, if the call it belongs to succeeded. -/
def idOfSuccess (id : String) : Except PyError (Bool × String) → Option String
  | .ok (true, _) => some id
  | _ => none

/-- The id of the command, if it has one the store does not know and the blocker does
what the command asks for. -/
def effectiveId (env : Platform Φ Ω) (p : PacketProcessor Φ repr) (d : Delivery Ω) :
    Option String :=
  if commandId repr d.command = "" ∨ p.Duplicate d.command then none
  else idOfSuccess (commandId repr d.command)
    (p.applyBackendCommand env.firewall d.host d.command).1

/-- What it takes for a command to take effect. -/
structure EffectiveAs (env : Platform Φ Ω) (p : PacketProcessor Φ repr) (d : Delivery Ω)
    (id : String) : Prop where
  commandId : commandId repr d.command = id
  nonblank : id ≠ ""
  fresh : id ∉ p.processedCommandStore.commandIds
  wellFormed : WellFormed repr d.command
  succeeds : ∃ status,
    (p.applyBackendCommand env.firewall d.host d.command).1 = .ok (true, status)

theorem duplicate_iff (p : PacketProcessor Φ repr) {command : JsonObject}
    (hid : commandId repr command ≠ "") :
    p.Duplicate command ↔ commandId repr command ∈ p.processedCommandStore.commandIds := by
  rw [PacketProcessor.Duplicate,
    p.processedCommandStore.contains_iff (strip_commandId repr command) hid]
  exact ⟨fun h => h.2, fun h => ⟨hid, h⟩⟩

theorem effectiveAs_of_effectiveId {env : Platform Φ Ω} {p : PacketProcessor Φ repr}
    {d : Delivery Ω} {id : String} (h : effectiveId env p d = some id) :
    EffectiveAs env p d id := by
  unfold effectiveId at h
  split_ifs at h with hskip
  obtain ⟨hid, hdup⟩ := not_or.mp hskip
  cases hresult : (p.applyBackendCommand env.firewall d.host d.command).1 with
  | error e =>
    rw [hresult] at h
    cases h
  | ok answer =>
    rw [hresult] at h
    obtain ⟨ok, status⟩ := answer
    cases ok with
    | false => cases h
    | true =>
      obtain rfl : commandId repr d.command = id := Option.some.inj h
      refine ⟨rfl, hid, fun hmem => hdup ((duplicate_iff p hid).mpr hmem), ?_, status, hresult⟩
      cases hduration : durationSeconds d.command with
      | error e =>
        rw [PacketProcessor.applyBackendCommand_of_unreadable _ _ _ hduration] at hresult
        cases hresult
      | ok duration =>
        have hread := (durationSeconds_isOk_iff d.command).mp ⟨duration, hduration⟩
        rcases em (action repr d.command = "" ∨ ipAddress repr d.command = "") with
          hblank | hblank
        · rw [PacketProcessor.applyBackendCommand_of_blank _ _ _ hduration hblank] at hresult
          cases hresult
        · exact ⟨hread, (not_or.mp hblank).1, (not_or.mp hblank).2⟩

/-! ## The store under a command -/

namespace PacketProcessor

/-- The store after the blocker was called for a command. -/
theorem processedCommandStore_afterCall (h : Host Ω) (id action ip : String) (ok : Bool)
    (b : AutoBlocker Φ) (p : PacketProcessor Φ repr) :
    (afterCall h id action ip ok b p).processedCommandStore =
      if ok = true ∧ id ≠ "" then p.processedCommandStore.add id
      else p.processedCommandStore := by
  unfold afterCall commit publishBlockEvent
  cases ok with
  | false => rfl
  | true =>
    rcases em (id = "") with hblank | hblank
    · simp [hblank]
    · simp [hblank]

/-- The store after an attempt: the id is added when the call succeeded. -/
theorem processedCommandStore_attempt (fw : Option (FirewallAdapter Φ Ω)) (h : Host Ω)
    (id action ip : String) (duration : ℤ) (p : PacketProcessor Φ repr) :
    (attempt fw h id action ip duration p).2.processedCommandStore =
      if id = "" then p.processedCommandStore
      else (idOfSuccess id (attempt fw h id action ip duration p).1).elim p.processedCommandStore
        p.processedCommandStore.add := by
  cases hcall : blockerCall fw h action ip duration with
  | none =>
    rw [attempt_of_unsupported fw h p id action ip duration hcall]
    exact (ite_self _).symm
  | some call =>
    cases hrun : call p.autoBlocker with
    | mk result b =>
      cases result with
      | error e =>
        rw [attempt_of_error fw h p id action ip duration hcall hrun]
        exact (ite_self _).symm
      | ok answer =>
        rw [attempt_of_ok fw h p id action ip duration hcall hrun]
        obtain ⟨ok, status⟩ := answer
        rw [processedCommandStore_afterCall]
        cases ok with
        | false =>
          rw [if_neg fun hok => Bool.false_ne_true hok.1]
          exact (ite_self _).symm
        | true =>
          rcases em (id = "") with hblank | hblank
          · rw [if_neg fun hok => hok.2 hblank, if_pos hblank]
          · rw [if_pos ⟨rfl, hblank⟩, if_neg hblank]
            simp only [idOfSuccess, Option.elim_some]

end PacketProcessor

/-- A command that takes effect adds its id to the store; no other
command changes the store. -/
theorem processedCommandStore_applyBackendCommand (env : Platform Φ Ω) (d : Delivery Ω)
    (p : PacketProcessor Φ repr) :
    (p.applyBackendCommand env.firewall d.host d.command).2.processedCommandStore =
      (effectiveId env p d).elim p.processedCommandStore p.processedCommandStore.add := by
  unfold effectiveId
  rcases em (p.Duplicate d.command) with hdup | hdup
  · rw [PacketProcessor.applyBackendCommand_snd_of_duplicate _ _ _ hdup, if_pos (Or.inr hdup)]
    rfl
  · cases hduration : durationSeconds d.command with
    | error e =>
      rw [PacketProcessor.applyBackendCommand_of_unreadable _ _ _ hduration]
      split_ifs <;> rfl
    | ok duration =>
      rcases em (action repr d.command = "" ∨ ipAddress repr d.command = "") with hblank | hblank
      · rw [PacketProcessor.applyBackendCommand_of_blank _ _ _ hduration hblank]
        split_ifs <;> rfl
      · obtain ⟨haction, hip⟩ := not_or.mp hblank
        rw [PacketProcessor.applyBackendCommand_of_fresh _ _ _ hduration haction hip hdup,
          PacketProcessor.processedCommandStore_attempt]
        rcases em (commandId repr d.command = "") with hid | hid
        · rw [if_pos hid, if_pos (Or.inl hid)]
          rfl
        · rw [if_neg hid, if_neg (not_or.mpr ⟨hid, hdup⟩)]

/-! ## An engine over its command file -/

/-- A processor, and the file of its command store with the sibling it is written
through. -/
structure Engine (Φ : Type) (repr : Json → String) where
  processor : PacketProcessor Φ repr
  commandFile : Renamed ByteArray

namespace Engine

variable (floats : FloatText) (depth : ℕ)

/-- Call a method of the processor. -/
def onProcessor {α : Type} (x : PacketProcessor.Action Φ repr α) :
    Effect PyError (Engine Φ repr) α :=
  Effect.zoom processor (fun p e => { e with processor := p }) x

/-- `processed_command_store.add`: the id is in memory before the file is written. -/
def addCommandId (commandId : String) (how : Replacing ByteArray) :
    Effect PyError (Engine Φ repr) Unit := do
  let e ← Effect.get
  let store := e.processor.processedCommandStore
  if strip commandId = "" ∨ strip commandId ∈ store.commandIds then return ()
  onProcessor (Effect.modify fun p => { p with processedCommandStore := store.add commandId })
  Effect.zoom commandFile (fun file e => { e with commandFile := file })
    (saveJson floats depth (ProcessedCommandStore.document (store.add commandId).commandIds) how)

/-- What `apply_backend_command` does once the blocker has done what was asked. -/
def commit (h : Host Ω) (commandId action ip : String) (how : Replacing ByteArray) :
    Effect PyError (Engine Φ repr) Unit := do
  if commandId ≠ "" then
    addCommandId floats depth commandId how
  onProcessor (Effect.modify (PacketProcessor.publishBlockEvent
    (PacketProcessor.commandBlockEvent h commandId action ip)))

/-- `apply_backend_command` past the duplicate check. -/
def attempt (fw : Option (FirewallAdapter Φ Ω)) (h : Host Ω) (commandId action ip : String)
    (duration : ℤ) (how : Replacing ByteArray) : Effect PyError (Engine Φ repr) (Bool × String) :=
  match PacketProcessor.blockerCall fw h action ip duration with
  | none => return (false, "unsupported_action")
  | some call => do
    let answer ← onProcessor (PacketProcessor.onBlocker call)
    if answer.1 then
      commit floats depth h commandId action ip how
    return answer

/-- `apply_backend_command`. -/
def applyBackendCommand (fw : Option (FirewallAdapter Φ Ω)) (h : Host Ω) (command : JsonObject)
    (how : Replacing ByteArray) : Effect PyError (Engine Φ repr) (Bool × String) := do
  let commandId := commandId repr command
  let action := action repr command
  let ip := ipAddress repr command
  let duration ← Effect.ofExcept (durationSeconds command)
  if action = "" ∨ ip = "" then
    return (false, "invalid_command")
  let e ← Effect.get
  if commandId ≠ "" ∧ e.processor.processedCommandStore.contains commandId = true then
    return (true, "duplicate_command")
  attempt floats depth fw h commandId action ip duration how

/-- `__init__` over a firewall and the file of a command store. -/
def start (firewall : Φ) (policy : ResponsePolicy) (maxCommandIds : ℕ) (hpos : 0 < maxCommandIds)
    (commandFile : Renamed ByteArray) : Except PyError (Engine Φ repr) := do
  let payload ← decodeFile (loads floats depth) commandFile.file
  let store ← ProcessedCommandStore.init maxCommandIds hpos payload
  return ⟨.init firewall policy store, commandFile⟩

/-- A new processor on the same host: `__init__` again, over the firewall and the
command file the old one left.  What was published stays published. -/
def restart (e : Engine Φ repr) : Except PyError (Engine Φ repr) := do
  let fresh ← start floats depth e.processor.autoBlocker.firewall
    (.init e.processor.responsePolicy.bruteforceWindowSeconds
      e.processor.responsePolicy.bruteforceAttemptThreshold)
    e.processor.processedCommandStore.maxCommandIds
    e.processor.processedCommandStore.maxCommandIds_pos e.commandFile
  return { fresh with processor := { fresh.processor with
    alerts := e.processor.alerts
    sessionUpdates := e.processor.sessionUpdates
    blockEvents := e.processor.blockEvents } }

end Engine

inductive EngineEvent (Ω : Type) where
  /-- A command, and how far the save of its id comes if there is one. -/
  | command (d : Delivery Ω) (how : Replacing ByteArray)
  | packet (a : Arrival Ω)
  | restart

/-- What an event answers. -/
inductive EngineAnswer where
  | command (answer : Except PyError (Bool × String))
  | packet (answer : Except PyError Unit)
  | restart (answer : Except PyError Unit)

/-- The engine.  One that cannot read its command file does not come up again. -/
def engine (floats : FloatText) (depth : ℕ) (env : Platform Φ Ω) :
    Machine (Engine Φ repr) (EngineEvent Ω) EngineAnswer where
  step e event :=
    match event with
    | .command d how =>
      ((e.applyBackendCommand floats depth env.firewall d.host d.command how).2,
        .command (e.applyBackendCommand floats depth env.firewall d.host d.command how).1)
    | .packet a =>
      ({ e with processor := (e.processor.process env a).2 },
        .packet (e.processor.process env a).1)
    | .restart =>
      match e.restart floats depth with
      | .ok e' => (e', .restart (.ok ()))
      | .error err => (e, .restart (.error err))

/-! ## What a command does to the store and its file -/

namespace Engine

variable {floats : FloatText} {depth : ℕ} {fw : Option (FirewallAdapter Φ Ω)} {h : Host Ω}
  {e : Engine Φ repr} {id action ip : String} {duration : ℤ} {how : Replacing ByteArray}

/-- The command store and its file. -/
def stored (e : Engine Φ repr) : SavedCommands where
  maxCommandIds := e.processor.processedCommandStore.maxCommandIds
  commandIds := e.processor.processedCommandStore.commandIds
  disk := e.commandFile
  maxCommandIds_pos := e.processor.processedCommandStore.maxCommandIds_pos

variable (floats depth) in
/-- The save of the ids with this one among them. -/
def savingId (e : Engine Φ repr) (id : String) (how : Replacing ByteArray) :
    Except PyError Unit × Renamed ByteArray :=
  saveJson floats depth
    (ProcessedCommandStore.document (e.processor.processedCommandStore.add id).commandIds) how
    e.commandFile

/-- The id can be added: it is not blank and not known. -/
def Fresh (e : Engine Φ repr) (id : String) : Prop :=
  ¬ (strip id = "" ∨ strip id ∈ e.processor.processedCommandStore.commandIds)

theorem addCommandId_of_fresh (hid : e.Fresh id) :
    addCommandId floats depth id how e =
      ((savingId floats depth e id how).1,
        ⟨{ e.processor with processedCommandStore := e.processor.processedCommandStore.add id },
          (savingId floats depth e id how).2⟩) := by
  unfold addCommandId
  rw [Effect.bind_apply, Effect.get_apply]
  simp only [if_neg hid]
  rfl

/-- Seen from the store, an id is saved by `SavedCommands.add`. -/
theorem add_stored (hid : e.Fresh id) :
    (SavedCommands.add floats depth id how e.stored).2 =
      { e.stored with
        commandIds := (e.processor.processedCommandStore.add id).commandIds
        disk := (savingId floats depth e id how).2 } := by
  have hids : (e.processor.processedCommandStore.add id).commandIds =
      BoundedFifo.newest e.processor.processedCommandStore.maxCommandIds
        (e.processor.processedCommandStore.commandIds ++ [strip id]) := by
    unfold ProcessedCommandStore.add
    rw [dif_neg hid]
    rfl
  rw [SavedCommands.add_of_fresh how (s := e.stored) hid, savingId, hids]
  rfl

/-- The rest of a command whose id is saved: there is no block event if the save raises. -/
theorem commit_of_fresh (hblank : id ≠ "") (hid : e.Fresh id) :
    commit floats depth h id action ip how e =
      match savingId floats depth e id how with
      | (.ok _, file) => (.ok (), ⟨PacketProcessor.commit h id action ip e.processor, file⟩)
      | (.error err, file) => (.error err, ⟨{ e.processor with
          processedCommandStore := e.processor.processedCommandStore.add id }, file⟩) := by
  unfold commit
  rw [if_pos hblank, Effect.bind_apply, addCommandId_of_fresh hid]
  rcases savingId floats depth e id how with ⟨saved, file⟩
  cases saved with
  | error err => rfl
  | ok u =>
    unfold PacketProcessor.commit
    simp only [if_pos hblank]
    rfl

/-- The attempt is the attempt of the processor where nothing is saved. -/
theorem attempt_of_idle (hidle : id = "" ∨
    idOfSuccess id (PacketProcessor.attempt fw h id action ip duration e.processor).1 = none) :
    attempt floats depth fw h id action ip duration how e =
      ((PacketProcessor.attempt fw h id action ip duration e.processor).1,
        { e with
          processor := (PacketProcessor.attempt fw h id action ip duration e.processor).2 }) := by
  unfold attempt
  cases hcall : PacketProcessor.blockerCall fw h action ip duration with
  | none => rw [PacketProcessor.attempt_of_unsupported fw h _ id action ip duration hcall]; rfl
  | some call =>
    rcases hrun : call e.processor.autoBlocker with ⟨result, b⟩
    have hon : onProcessor (PacketProcessor.onBlocker call) e =
        (result, { e with processor := { e.processor with autoBlocker := b } }) := by
      simp only [onProcessor, PacketProcessor.onBlocker, Effect.zoom_apply, hrun]
    cases result with
    | error err =>
      rw [PacketProcessor.attempt_of_error fw h _ id action ip duration hcall hrun]
      exact Effect.bind_of_error hon
    | ok answer =>
      obtain ⟨ok, status⟩ := answer
      rw [PacketProcessor.attempt_of_ok fw h _ id action ip duration hcall hrun] at hidle ⊢
      refine (Effect.bind_of_ok hon).trans ?_
      cases ok with
      | false => rfl
      | true =>
        obtain rfl : id = "" := hidle.resolve_right fun hnone => by cases hnone
        rfl

/-- The attempt of a command that takes effect: what the processor does, with the save between
the blocker and the block event. -/
theorem attempt_of_effective (hblank : id ≠ "") (hid : e.Fresh id) {status : String}
    (hok : (PacketProcessor.attempt fw h id action ip duration e.processor).1 =
      .ok (true, status)) :
    ∃ b, attempt floats depth fw h id action ip duration how e =
      match savingId floats depth e id how with
      | (.ok _, file) => ((PacketProcessor.attempt fw h id action ip duration e.processor).1,
          ⟨(PacketProcessor.attempt fw h id action ip duration e.processor).2, file⟩)
      | (.error err, file) => (.error err, ⟨{ e.processor with
          autoBlocker := b
          processedCommandStore := e.processor.processedCommandStore.add id }, file⟩) := by
  unfold attempt
  cases hcall : PacketProcessor.blockerCall fw h action ip duration with
  | none =>
    rw [PacketProcessor.attempt_of_unsupported fw h _ id action ip duration hcall] at hok
    cases hok
  | some call =>
    rcases hrun : call e.processor.autoBlocker with ⟨result, b⟩
    have hon : onProcessor (PacketProcessor.onBlocker call) e =
        (result, { e with processor := { e.processor with autoBlocker := b } }) := by
      simp only [onProcessor, PacketProcessor.onBlocker, Effect.zoom_apply, hrun]
    cases result with
    | error err =>
      rw [PacketProcessor.attempt_of_error fw h _ id action ip duration hcall hrun] at hok
      cases hok
    | ok answer =>
      rw [PacketProcessor.attempt_of_ok fw h _ id action ip duration hcall hrun] at hok ⊢
      obtain rfl : answer = (true, status) := Except.ok.inj hok
      have hcommit : commit floats depth h id action ip how
          { e with processor := { e.processor with autoBlocker := b } } = _ :=
        commit_of_fresh hblank hid
      refine ⟨b, (Effect.bind_of_ok hon).trans ?_⟩
      have hsaving : savingId floats depth
          { e with processor := { e.processor with autoBlocker := b } } id how =
          savingId floats depth e id how := rfl
      rw [if_pos rfl, Effect.bind_apply, hcommit, hsaving]
      rcases savingId floats depth e id how with ⟨saved, file⟩
      cases saved with
      | ok u => rfl
      | error err => rfl

variable {command : JsonObject}

theorem applyBackendCommand_of_unreadable {err : PyError}
    (hduration : durationSeconds command = .error err) :
    applyBackendCommand floats depth fw h command how e = (.error err, e) := by
  unfold applyBackendCommand
  rw [hduration, Effect.bind_of_error (Effect.ofExcept_apply _ _)]

theorem applyBackendCommand_of_blank (hduration : durationSeconds command = .ok duration)
    (hblank : BackendCommand.action repr command = "" ∨ ipAddress repr command = "") :
    applyBackendCommand floats depth fw h command how e = (.ok (false, "invalid_command"), e) := by
  unfold applyBackendCommand
  rw [hduration, Effect.bind_of_ok (Effect.ofExcept_apply _ _), if_pos hblank]
  rfl

theorem applyBackendCommand_of_duplicate (hformed : WellFormed repr command)
    (hdup : e.processor.Duplicate command) :
    applyBackendCommand floats depth fw h command how e = (.ok (true, "duplicate_command"), e) := by
  obtain ⟨duration, hduration⟩ := (durationSeconds_isOk_iff command).mpr hformed.duration
  unfold PacketProcessor.Duplicate at hdup
  unfold applyBackendCommand
  rw [hduration, Effect.bind_of_ok (Effect.ofExcept_apply _ _),
    if_neg (not_or.mpr ⟨hformed.action, hformed.ipAddress⟩), Effect.bind_of_ok (Effect.get_apply _),
    if_pos hdup]
  rfl

theorem applyBackendCommand_of_fresh (hduration : durationSeconds command = .ok duration)
    (haction : BackendCommand.action repr command ≠ "") (hip : ipAddress repr command ≠ "")
    (hdup : ¬ e.processor.Duplicate command) :
    applyBackendCommand floats depth fw h command how e =
      attempt floats depth fw h (commandId repr command) (BackendCommand.action repr command)
        (ipAddress repr command) duration how e := by
  unfold PacketProcessor.Duplicate at hdup
  unfold applyBackendCommand
  rw [hduration, Effect.bind_of_ok (Effect.ofExcept_apply _ _),
    if_neg (not_or.mpr ⟨haction, hip⟩), Effect.bind_of_ok (Effect.get_apply _), if_neg hdup]

/-- A duplicate changes nothing, whatever its other fields are. -/
theorem applyBackendCommand_snd_of_duplicate (hdup : e.processor.Duplicate command) :
    (applyBackendCommand floats depth fw h command how e).2 = e := by
  cases hduration : durationSeconds command with
  | error err => rw [applyBackendCommand_of_unreadable hduration]
  | ok duration =>
    rcases em (BackendCommand.action repr command = "" ∨ ipAddress repr command = "") with
      hblank | hblank
    · rw [applyBackendCommand_of_blank hduration hblank]
    · obtain ⟨haction, hip⟩ := not_or.mp hblank
      have hread := (durationSeconds_isOk_iff command).mp ⟨duration, hduration⟩
      rw [applyBackendCommand_of_duplicate ⟨hread, haction, hip⟩ hdup]

variable {env : Platform Φ Ω} {d : Delivery Ω}

/-- A command that does not take effect is applied as by the processor; nothing is saved. -/
theorem applyBackendCommand_of_idle (hidle : effectiveId env e.processor d = none) :
    applyBackendCommand floats depth env.firewall d.host d.command how e =
      ((e.processor.applyBackendCommand env.firewall d.host d.command).1,
        { e with
          processor := (e.processor.applyBackendCommand env.firewall d.host d.command).2 }) := by
  cases hduration : durationSeconds d.command with
  | error err =>
    rw [applyBackendCommand_of_unreadable hduration,
      PacketProcessor.applyBackendCommand_of_unreadable _ _ _ hduration]
  | ok duration =>
    rcases em (BackendCommand.action repr d.command = "" ∨ ipAddress repr d.command = "") with
      hblank | hblank
    · rw [applyBackendCommand_of_blank hduration hblank,
        PacketProcessor.applyBackendCommand_of_blank _ _ _ hduration hblank]
    · obtain ⟨haction, hip⟩ := not_or.mp hblank
      have hformed : WellFormed repr d.command :=
        ⟨(durationSeconds_isOk_iff d.command).mp ⟨duration, hduration⟩, haction, hip⟩
      rcases em (e.processor.Duplicate d.command) with hdup | hdup
      · rw [applyBackendCommand_of_duplicate hformed hdup,
          PacketProcessor.applyBackendCommand_of_duplicate _ _ _ hformed hdup]
      · have hfresh := PacketProcessor.applyBackendCommand_of_fresh env.firewall d.host e.processor
          hduration haction hip hdup
        rw [applyBackendCommand_of_fresh hduration haction hip hdup, hfresh]
        refine attempt_of_idle ?_
        unfold effectiveId at hidle
        split_ifs at hidle with hskip
        · exact Or.inl (hskip.resolve_right hdup)
        · exact Or.inr (hfresh ▸ hidle)

theorem fresh_of_effectiveId (hid : effectiveId env e.processor d = some id) : e.Fresh id := by
  obtain ⟨rfl, hblank, hfresh, -, -⟩ := effectiveAs_of_effectiveId hid
  rw [Fresh, strip_commandId]
  exact not_or.mpr ⟨hblank, hfresh⟩

/-- A command that takes effect: what the processor does, with the save between the blocker and
the block event. -/
theorem applyBackendCommand_of_effective (hid : effectiveId env e.processor d = some id) :
    ∃ b, applyBackendCommand floats depth env.firewall d.host d.command how e =
      match savingId floats depth e id how with
      | (.ok _, file) => ((e.processor.applyBackendCommand env.firewall d.host d.command).1,
          ⟨(e.processor.applyBackendCommand env.firewall d.host d.command).2, file⟩)
      | (.error err, file) => (.error err, ⟨{ e.processor with
          autoBlocker := b
          processedCommandStore := e.processor.processedCommandStore.add id }, file⟩) := by
  obtain ⟨hcmd, hblank, hfresh, hformed, status, hok⟩ := effectiveAs_of_effectiveId hid
  have hdup : ¬ e.processor.Duplicate d.command := fun hdup =>
    hfresh (hcmd ▸ (duplicate_iff _ (hcmd.trans_ne hblank)).mp hdup)
  obtain ⟨duration, hduration⟩ := (durationSeconds_isOk_iff _).mpr hformed.duration
  have hrun := PacketProcessor.applyBackendCommand_of_fresh env.firewall d.host e.processor
    hduration hformed.action hformed.ipAddress hdup
  rw [hcmd] at hrun
  rw [hrun] at hok
  obtain ⟨b, hattempt⟩ : ∃ b, attempt floats depth env.firewall d.host id _ _ _ how e = _ :=
    attempt_of_effective hblank (fresh_of_effectiveId hid) hok
  refine ⟨b, ?_⟩
  rw [applyBackendCommand_of_fresh hduration hformed.action hformed.ipAddress hdup, hcmd, hrun]
  exact hattempt

/-- Seen from the store, a command that takes effect adds its id, and no other does anything. -/
theorem stored_applyBackendCommand :
    (applyBackendCommand floats depth env.firewall d.host d.command how e).2.stored =
      (effectiveId env e.processor d).elim e.stored fun id =>
        (SavedCommands.add floats depth id how e.stored).2 := by
  have hstore := processedCommandStore_applyBackendCommand env d e.processor
  cases hid : effectiveId env e.processor d with
  | none =>
    rw [hid] at hstore
    rw [applyBackendCommand_of_idle hid]
    simp only [stored, hstore, Option.elim_none]
  | some id =>
    rw [hid] at hstore
    obtain ⟨b, happly⟩ : ∃ b, applyBackendCommand floats depth _ _ _ how e = _ :=
      applyBackendCommand_of_effective hid
    rw [happly, Option.elim_some, add_stored (fresh_of_effectiveId hid)]
    rcases savingId floats depth e id how with ⟨saved, file⟩
    cases saved with
    | ok u =>
      simp only [stored, hstore, Option.elim_some, ProcessedCommandStore.maxCommandIds_add]
    | error err => simp only [stored, ProcessedCommandStore.maxCommandIds_add]

/-- Ids can always be dumped, so that a save returns exactly where it renames. -/
theorem savingId_fst (floats : FloatText) (hdepth : 2 ≤ depth) (e : Engine Φ repr) (id : String)
    (how : Replacing ByteArray) :
    how = .renamed ∧ (savingId floats depth e id how).1 = .ok () ∨
      how ≠ .renamed ∧ (savingId floats depth e id how).1 = .error .osError := by
  obtain ⟨text, htext⟩ := SavedCommands.exists_dumps_document floats hdepth
    (e.processor.processedCommandStore.add id).commandIds
  rcases file_saveJson htext how e.commandFile with ⟨hhow, hsave, -⟩ | ⟨hhow, hsave, -⟩
  · exact Or.inl ⟨hhow, hsave⟩
  · exact Or.inr ⟨hhow, hsave⟩

/-- A command that takes effect returns exactly where its id is saved. -/
theorem applyBackendCommand_ok_iff (hdepth : 2 ≤ depth)
    (hid : effectiveId env e.processor d = some id) :
    (∃ status, (applyBackendCommand floats depth env.firewall d.host d.command how e).1 =
      .ok (true, status)) ↔ how = .renamed := by
  obtain ⟨-, -, -, -, status, hok⟩ := effectiveAs_of_effectiveId hid
  obtain ⟨b, happly⟩ : ∃ b, applyBackendCommand floats depth _ _ _ how e = _ :=
    applyBackendCommand_of_effective hid
  have hsave := savingId_fst floats hdepth e id how
  rw [happly]
  rcases hrun : savingId floats depth e id how with ⟨saved, file⟩
  rw [hrun] at hsave
  rcases hsave with ⟨hhow, hsaved⟩ | ⟨hhow, hsaved⟩
  · obtain rfl : saved = .ok () := hsaved
    exact iff_of_true ⟨status, hok⟩ hhow
  · obtain rfl : saved = .error .osError := hsaved
    exact iff_of_false (by simp) hhow

/-- Where the file can be written, this is `apply_backend_command` of the processor. -/
theorem applyBackendCommand_of_renamed (hdepth : 2 ≤ depth) :
    (applyBackendCommand floats depth env.firewall d.host d.command .renamed e).1 =
        (e.processor.applyBackendCommand env.firewall d.host d.command).1 ∧
      (applyBackendCommand floats depth env.firewall d.host d.command .renamed e).2.processor =
        (e.processor.applyBackendCommand env.firewall d.host d.command).2 := by
  cases hid : effectiveId env e.processor d with
  | none =>
    rw [applyBackendCommand_of_idle hid]
    exact ⟨rfl, rfl⟩
  | some id =>
    obtain ⟨b, happly⟩ : ∃ b, applyBackendCommand floats depth _ _ _ .renamed e = _ :=
      applyBackendCommand_of_effective hid
    rw [happly]
    rcases hrun : savingId floats depth e id .renamed with ⟨saved, file⟩
    rcases savingId_fst floats hdepth e id .renamed with ⟨-, hsaved⟩ | ⟨hne, -⟩
    · rw [hrun] at hsaved
      obtain rfl : saved = .ok () := hsaved
      exact ⟨rfl, rfl⟩
    · exact absurd rfl hne

end Engine

/-! ## The store along a run -/

variable {floats : FloatText} {depth : ℕ}

/-- Seen from the store, an engine starts as a store does. -/
theorem Engine.stored_start (firewall : Φ) (policy : ResponsePolicy) (maxCommandIds : ℕ)
    (hpos : 0 < maxCommandIds) (commandFile : Renamed ByteArray) (ids : List String) :
    (Engine.start floats depth firewall policy maxCommandIds hpos commandFile :
        Except PyError (Engine Φ repr)).map Engine.stored =
      SavedCommands.reopen floats depth repr ⟨maxCommandIds, ids, commandFile, hpos⟩ := by
  unfold Engine.start SavedCommands.reopen
  cases hdecode : decodeFile (loads floats depth) commandFile.file with
  | error err => rfl
  | ok payload =>
    simp only [bind, Except.bind]
    cases hload : ProcessedCommandStore.load repr maxCommandIds payload with
    | error err => rw [ProcessedCommandStore.init_of_load_error hpos hload]; rfl
    | ok loaded => rw [ProcessedCommandStore.init_of_load hpos hload]; rfl

/-- Seen from the store, a restart is `SavedCommands.reopen`. -/
theorem Engine.stored_restart (floats : FloatText) (depth : ℕ) (e : Engine Φ repr) :
    (e.restart floats depth).map Engine.stored =
      SavedCommands.reopen floats depth repr e.stored := by
  refine Eq.trans ?_ (Engine.stored_start e.processor.autoBlocker.firewall
    (.init e.processor.responsePolicy.bruteforceWindowSeconds
      e.processor.responsePolicy.bruteforceAttemptThreshold) _
    e.processor.processedCommandStore.maxCommandIds_pos e.commandFile
    e.processor.processedCommandStore.commandIds)
  unfold Engine.restart
  rcases Engine.start floats depth _ _ _ _ e.commandFile with err | fresh
  · rfl
  · rfl

/-- What an event does to the store. -/
def storeEvent (env : Platform Φ Ω) (e : Engine Φ repr) :
    EngineEvent Ω → Option SavedCommands.Event
  | .command d how => (effectiveId env e.processor d).map fun id => .add id how
  | .packet _ => none
  | .restart => some .restart

/-- What a run does to the store. -/
def storeEvents (floats : FloatText) (depth : ℕ) (env : Platform Φ Ω) :
    Engine Φ repr → List (EngineEvent Ω) → List SavedCommands.Event
  | _, [] => []
  | e, event :: events => (storeEvent env e event).toList ++
      storeEvents floats depth env ((engine floats depth env).step e event).1 events

/-- The id of an event that is a command and takes effect. -/
def effectiveIdOf (env : Platform Φ Ω) (e : Engine Φ repr) : EngineEvent Ω → Option String
  | .command d _ => effectiveId env e.processor d
  | .packet _ => none
  | .restart => none

/-- The ids of the commands that take effect along a run, in order. -/
def effectiveIds (floats : FloatText) (depth : ℕ) (env : Platform Φ Ω) :
    Engine Φ repr → List (EngineEvent Ω) → List String
  | _, [] => []
  | e, event :: events => (effectiveIdOf env e event).toList ++
      effectiveIds floats depth env ((engine floats depth env).step e event).1 events

theorem addedIds_storeEvents (env : Platform Φ Ω) (e : Engine Φ repr)
    (events : List (EngineEvent Ω)) :
    SavedCommands.addedIds (storeEvents floats depth env e events) =
      (effectiveIds floats depth env e events).toFinset := by
  induction events generalizing e with
  | nil => rfl
  | cons event events ih =>
    rw [storeEvents, effectiveIds, SavedCommands.addedIds_append, List.toFinset_append, ih]
    congr 1
    cases event with
    | packet a => rfl
    | restart => rfl
    | command d how =>
      cases hid : effectiveId env e.processor d with
      | none => simp only [storeEvent, effectiveIdOf, hid]; rfl
      | some id =>
        obtain ⟨rfl, hblank, -, -, -⟩ := effectiveAs_of_effectiveId hid
        simp [storeEvent, effectiveIdOf, hid, SavedCommands.addedIds, SavedCommands.addedId,
          strip_commandId, hblank]

/-- Seen from the store, a step of the engine is a step of the store, or none. -/
theorem stored_step (env : Platform Φ Ω) (e : Engine Φ repr) (event : EngineEvent Ω) :
    ((engine floats depth env).step e event).1.stored =
      (SavedCommands.lifetime floats depth repr).exec e.stored
        (storeEvent env e event).toList := by
  cases event with
  | command d how =>
    refine Engine.stored_applyBackendCommand.trans ?_
    cases hid : effectiveId env e.processor d with
    | none => simp only [storeEvent, hid]; rfl
    | some id => simp only [storeEvent, hid]; rfl
  | packet a =>
    have hstore := (e.processor.processed_snd env a).processedCommandStore
    change Engine.stored { e with processor := (e.processor.process env a).2 } = e.stored
    simp only [Engine.stored, hstore]
  | restart =>
    have hrestart := e.stored_restart floats depth
    have hevents : (storeEvent env e .restart).toList = [.restart] := rfl
    rw [hevents, Machine.exec_cons, Machine.exec_nil, SavedCommands.lifetime_restart, ← hrestart]
    unfold engine
    dsimp only
    cases e.restart floats depth with
    | error err => rfl
    | ok e' => rfl

theorem stored_exec (env : Platform Φ Ω) (e : Engine Φ repr) (events : List (EngineEvent Ω)) :
    ((engine floats depth env).exec e events).stored =
      (SavedCommands.lifetime floats depth repr).exec e.stored
        (storeEvents floats depth env e events) := by
  induction events generalizing e with
  | nil => rfl
  | cons event events ih =>
    rw [Machine.exec_cons, ih, stored_step, storeEvents, Machine.exec_append]

theorem storeEvents_append (env : Platform Φ Ω) (e : Engine Φ repr)
    (events events' : List (EngineEvent Ω)) :
    storeEvents floats depth env e (events ++ events') =
      storeEvents floats depth env e events ++
        storeEvents floats depth env ((engine floats depth env).exec e events) events' := by
  induction events generalizing e with
  | nil => rfl
  | cons event events ih =>
    rw [List.cons_append, storeEvents, storeEvents, ih, List.append_assoc, Machine.exec_cons]

/-! ## Redelivery -/

/-- The command is applied now, and its application succeeds. -/
structure Applied (floats : FloatText) (depth : ℕ) (env : Platform Φ Ω) (e : Engine Φ repr)
    (d : Delivery Ω) (how : Replacing ByteArray) (id : String) : Prop where
  commandId : commandId repr d.command = id
  nonblank : id ≠ ""
  fresh : ¬ e.processor.Duplicate d.command
  succeeds : ∃ status,
    (e.applyBackendCommand floats depth env.firewall d.host d.command how).1 = .ok (true, status)

/-- The commands applied are those that take effect and are saved. -/
theorem applied_iff (hdepth : 2 ≤ depth) {env : Platform Φ Ω} {e : Engine Φ repr}
    {d : Delivery Ω} {how : Replacing ByteArray} {id : String} :
    Applied floats depth env e d how id ↔
      effectiveId env e.processor d = some id ∧ how = .renamed := by
  constructor
  · rintro ⟨rfl, hblank, hdup, hok⟩
    have hskip : ¬ (commandId repr d.command = "" ∨ e.processor.Duplicate d.command) :=
      not_or.mpr ⟨hblank, hdup⟩
    cases hid : effectiveId env e.processor d with
    | none =>
      obtain ⟨status, hok⟩ := hok
      rw [Engine.applyBackendCommand_of_idle hid] at hok
      rw [effectiveId, if_neg hskip, hok] at hid
      cases hid
    | some id =>
      obtain ⟨rfl, -, -, -, -⟩ := effectiveAs_of_effectiveId hid
      exact ⟨rfl, (Engine.applyBackendCommand_ok_iff hdepth hid).mp hok⟩
  · rintro ⟨hid, hhow⟩
    obtain ⟨hcmd, hblank, hfresh, -, -⟩ := effectiveAs_of_effectiveId hid
    refine ⟨hcmd, hblank, fun hdup => hfresh ?_,
      (Engine.applyBackendCommand_ok_iff hdepth hid).mpr hhow⟩
    exact hcmd ▸ (duplicate_iff _ (hcmd.trans_ne hblank)).mp hdup

section redelivery

variable {firewall : Φ} {policy : ResponsePolicy} {maxCommandIds : ℕ}
  {hpos : 0 < maxCommandIds} {commandFile : Renamed ByteArray} {start : Engine Φ repr}

theorem reopen_of_start (hstart : Engine.start floats depth firewall policy maxCommandIds hpos
      commandFile = .ok start) :
    SavedCommands.reopen floats depth repr ⟨maxCommandIds, [], commandFile, hpos⟩ =
      .ok start.stored := by
  rw [← Engine.stored_start firewall policy maxCommandIds hpos commandFile, hstart]
  rfl

theorem maxCommandIds_of_start (hstart : Engine.start floats depth firewall policy maxCommandIds
      hpos commandFile = .ok start) :
    start.stored.maxCommandIds = maxCommandIds := by
  obtain ⟨payload, -, hstart⟩ := bind_eq_ok_iff.mp hstart
  obtain ⟨store, hinit, hstart⟩ := bind_eq_ok_iff.mp hstart
  obtain rfl := Except.ok.inj hstart
  exact (ProcessedCommandStore.load_of_init hinit).2

/-- A command that was applied is a duplicate until as many other ids as the store holds
were put in it. -/
theorem duplicate_after_applied (hdepth : 2 ≤ depth) (env : Platform Φ Ω)
    (hstart : Engine.start floats depth firewall policy maxCommandIds hpos commandFile = .ok start)
    (before : List (EngineEvent Ω)) {d : Delivery Ω} {id : String}
    (hid : effectiveId env ((engine floats depth env).exec start before).processor d = some id)
    (after : List (EngineEvent Ω))
    (hfew : ((effectiveIds floats depth env
      ((engine floats depth env).exec start (before ++ [.command d .renamed]))
      after).toFinset.erase id).card < maxCommandIds)
    {again : JsonObject} (hagain : commandId repr again = id) :
    ((engine floats depth env).exec start
      (before ++ [.command d .renamed] ++ after)).processor.Duplicate again := by
  obtain ⟨hcmd, hblank, hfresh, -, -⟩ := effectiveAs_of_effectiveId hid
  have hstrip : strip id = id := hcmd ▸ strip_commandId repr d.command
  have hknown : id ∉ ((SavedCommands.lifetime floats depth repr).exec start.stored
      (storeEvents floats depth env start before)).commandIds := by
    rw [← stored_exec]
    exact hfresh
  rw [← hstrip] at hknown hblank
  rw [← addedIds_storeEvents, ← maxCommandIds_of_start hstart] at hfew
  obtain ⟨m, hholds, hremembers⟩ := SavedCommands.remembers_of_saved hdepth
    (reopen_of_start hstart) (storeEvents floats depth env start before) _ hblank hknown
    (by rw [hstrip]; exact hfew)
  have hevents : storeEvents floats depth env start (before ++ [.command d .renamed] ++ after) =
      storeEvents floats depth env start before ++ .add id .renamed ::
        storeEvents floats depth env
          ((engine floats depth env).exec start (before ++ [.command d .renamed])) after := by
    rw [storeEvents_append, storeEvents_append, storeEvents, storeEvent, hid, List.append_assoc]
    rfl
  rw [hstrip] at hremembers
  rw [← hevents, ← stored_exec] at hholds
  rw [duplicate_iff _ (hagain.trans_ne (hstrip ▸ hblank)), hagain]
  have hmem := hremembers.known.mem
  rw [← hholds.known] at hmem
  exact hmem

/-- What the store knows it knew at the start, or was put in it. -/
theorem known_of_exec (hdepth : 2 ≤ depth) (env : Platform Φ Ω)
    (hstart : Engine.start floats depth firewall policy maxCommandIds hpos commandFile = .ok start)
    (events : List (EngineEvent Ω)) {id : String}
    (hid : id ∈ ((engine floats depth env).exec start
      events).processor.processedCommandStore.commandIds) :
    id ∈ start.processor.processedCommandStore.commandIds ∨
      id ∈ effectiveIds floats depth env start events := by
  have hholds := (SavedCommands.holds_of_reopen (reopen_of_start hstart)).exec hdepth
    (storeEvents floats depth env start events)
  rw [← stored_exec] at hholds
  have hmem : id ∈ ((engine floats depth env).exec start events).stored.commandIds := hid
  rw [hholds.known] at hmem
  rcases SavedCommands.Memory.mem_exec (Or.inl hmem) with h | h | h
  · exact Or.inl h
  · exact Or.inl h
  · rw [addedIds_storeEvents, List.mem_toFinset] at h
    exact Or.inr h

/-- Commands take effect at most once across redelivery and restart, over saves that may
fail.

Once a command with id `id` was applied, and while fewer than `maxCommandIds` other ids
have been put in the store since, a delivery under that id changes nothing, and answers
`duplicate_command` unless its own fields are malformed, which those of the applied
command are not.  A command that the blocker does not carry out leaves the store and its
file as they were, and one that never took effect is attempted whenever it is delivered. -/
theorem commands_take_effect_once (hdepth : 2 ≤ depth) (env : Platform Φ Ω)
    (hstart : Engine.start floats depth firewall policy maxCommandIds hpos commandFile = .ok start)
    (before : List (EngineEvent Ω)) :
    let e := (engine floats depth env).exec start before
    (∀ d how id after, Applied floats depth env e d how id →
      let applied := ((engine floats depth env).step e (.command d how)).1
      ((effectiveIds floats depth env applied after).toFinset.erase id).card < maxCommandIds →
      let later := (engine floats depth env).exec applied after
      ∀ (again : Delivery Ω) how', commandId repr again.command = id →
        (later.applyBackendCommand floats depth env.firewall again.host again.command how').2 =
          later ∧
        (again.command = d.command ∨ WellFormed repr again.command →
          (later.applyBackendCommand floats depth env.firewall again.host again.command how').1 =
            .ok (true, "duplicate_command"))) ∧
    (∀ (d : Delivery Ω) how,
      (∀ status, (e.processor.applyBackendCommand env.firewall d.host d.command).1 ≠
        .ok (true, status)) →
      (e.applyBackendCommand floats depth env.firewall d.host d.command how).2.stored =
        e.stored) ∧
    (∀ (again : Delivery Ω) how,
      commandId repr again.command ∉ start.processor.processedCommandStore.commandIds →
      commandId repr again.command ∉ effectiveIds floats depth env start before →
      WellFormed repr again.command →
      ∃ duration, durationSeconds again.command = .ok duration ∧
        e.applyBackendCommand floats depth env.firewall again.host again.command how =
          e.attempt floats depth env.firewall again.host (commandId repr again.command)
            (action repr again.command) (ipAddress repr again.command) duration how) := by
  intro e
  refine ⟨fun d how id after happlied => ?_, fun d how hfailed => ?_,
    fun again how hunknown hnever hformed => ?_⟩
  · obtain ⟨hid, rfl⟩ := (applied_iff hdepth).mp happlied
    intro applied hfew later again how' hagain
    have hexec : (engine floats depth env).exec start (before ++ [.command d .renamed]) =
        applied := Machine.exec_concat _ _ _ _
    have hdup := duplicate_after_applied hdepth env hstart before hid after
      (by rw [hexec]; exact hfew) hagain
    rw [Machine.exec_append, hexec] at hdup
    refine ⟨Engine.applyBackendCommand_snd_of_duplicate hdup, fun hsame => ?_⟩
    have hformed : WellFormed repr again.command := by
      rcases hsame with heq | hformed
      · rw [heq]
        exact (effectiveAs_of_effectiveId hid).wellFormed
      · exact hformed
    rw [Engine.applyBackendCommand_of_duplicate hformed hdup]
  · rw [Engine.stored_applyBackendCommand]
    cases hid : effectiveId env e.processor d with
    | none => rfl
    | some id =>
      obtain ⟨status, hok⟩ := (effectiveAs_of_effectiveId hid).succeeds
      exact absurd hok (hfailed status)
  · obtain ⟨duration, hduration⟩ := (durationSeconds_isOk_iff _).mpr hformed.duration
    refine ⟨duration, hduration, Engine.applyBackendCommand_of_fresh hduration hformed.action
      hformed.ipAddress fun hdup => ?_⟩
    have hknown := (duplicate_iff _ hdup.1).mp hdup
    exact (known_of_exec hdepth env hstart before hknown).elim hunknown hnever

end redelivery

/-- A platform with the `iptables` adapter and the default settings. -/
def linuxPlatform : Platform Chain CommandOutcomes := ⟨some linuxAdapter, .init none none⟩

/-- A processor on an empty rule chain, with room for two command ids. -/
def startedProcessor : PacketProcessor Chain fun _ => "" :=
  .init [] (.init 90 25) (.empty 2 Nat.two_pos)

/-- A command of the backend on a host where every firewall command runs. -/
def backendCommand (commandId action : String) : Delivery CommandOutcomes where
  host := .frozen 1700000000 .allRun lt_maxSeconds_1700000000
  command := [("command_id", .str commandId), ("action", .str action),
    ("ip_address", .str "203.0.113.10"), ("duration_seconds", .int 300)]

/-- The same processor over a command file that was never written. -/
def startedEngine : Engine Chain fun _ => "" := ⟨startedProcessor, ⟨none, none⟩⟩

theorem start_startedEngine : Engine.start integralFloats 2 [] (.init 90 25) 2 Nat.two_pos
    ⟨none, none⟩ = .ok startedEngine := rfl

/-- The block of the deduplication test, redelivered after two restarts and another command
whose save fails in between. -/
theorem commands_take_effect_once_block :
    let applied := ((engine integralFloats 2 linuxPlatform).step startedEngine
      (.command (backendCommand "cmd-1" "block") .renamed)).1
    let later := (engine integralFloats 2 linuxPlatform).exec applied
      [.restart, .command (backendCommand "cmd-2" "watchlist") .unrenamed, .restart]
    (later.applyBackendCommand integralFloats 2 linuxPlatform.firewall
      (backendCommand "cmd-1" "block").host (backendCommand "cmd-1" "block").command .renamed).1 =
        .ok (true, "duplicate_command") := by
  intro applied later
  have happlied : Applied integralFloats 2 linuxPlatform startedEngine
      (backendCommand "cmd-1" "block") .renamed "cmd-1" :=
    (applied_iff le_rfl).mpr ⟨by decide +kernel, rfl⟩
  have honce := (commands_take_effect_once le_rfl linuxPlatform start_startedEngine []).1
    (backendCommand "cmd-1" "block") .renamed "cmd-1"
    [.restart, .command (backendCommand "cmd-2" "watchlist") .unrenamed, .restart] happlied
    (by decide +kernel) (backendCommand "cmd-1" "block") .renamed happlied.commandId
  exact honce.2 (Or.inl rfl)

/-- The command with one field replaced. -/
def malformed (field : String) (value : Json) : JsonObject :=
  (backendCommand "cmd-1" "block").command.map fun entry =>
    if entry.1 = field then (field, value) else entry

/-- A redelivery of an applied command whose own fields are malformed is refused as such, in
front of the check for duplicates.  And a command whose save fails raises and is remembered
in memory: it is a duplicate afterwards, and takes the room of one that was applied. -/
theorem redelivery_not_always_duplicate :
    let block := backendCommand "cmd-1" "block"
    let applied := ((engine integralFloats 2 linuxPlatform).step startedEngine
      (.command block .renamed)).1
    let small : Engine Chain fun _ => "" :=
      ⟨.init [] (.init 90 25) (.empty 1 Nat.one_pos), ⟨none, none⟩⟩
    let run := (engine integralFloats 2 linuxPlatform).exec small
    let first := backendCommand "cmd-1" "watchlist"
    let second := backendCommand "cmd-2" "watchlist"
    ((startedEngine.applyBackendCommand integralFloats 2 linuxPlatform.firewall block.host
        block.command .renamed).1 = .ok (true, "blocked") ∧
      (applied.applyBackendCommand integralFloats 2 linuxPlatform.firewall block.host
        (malformed "ip_address" (.str " ")) .renamed).1 = .ok (false, "invalid_command") ∧
      (applied.applyBackendCommand integralFloats 2 linuxPlatform.firewall block.host
        (malformed "duration_seconds" (.str "soon")) .renamed).1 = .error .valueError) ∧
    ((small.applyBackendCommand integralFloats 2 linuxPlatform.firewall first.host
        first.command .renamed).1 = .ok (true, "watchlisted") ∧
      ((run [.command first .renamed]).applyBackendCommand integralFloats 2
        linuxPlatform.firewall second.host second.command .refused).1 = .error .osError ∧
      ((run [.command first .renamed, .command second .refused]).applyBackendCommand
        integralFloats 2 linuxPlatform.firewall second.host second.command .renamed).1 =
          .ok (true, "duplicate_command") ∧
      ((run [.command first .renamed, .command second .refused]).applyBackendCommand
        integralFloats 2 linuxPlatform.firewall first.host first.command .renamed).1 =
          .ok (true, "watchlisted")) := by
  decide +kernel

end SmartIDS.PacketCapture
