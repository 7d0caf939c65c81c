import SmartIDS.PacketCapture.BackendCommands
set_option autoImplicit false

/-!
# PacketCapture: what applying a command does

`apply_backend_command` ends in one of four ways; each has its equation here.
The rest of the development cites these and never unfolds the dispatcher.
-/

namespace SmartIDS.PacketCapture

open SmartIDS.Foundation SmartIDS.Python SmartIDS.ResponseEngine BackendCommand

/-! ## The duration field -/

/-- The JSON values `int` accepts. -/
def Convertible : Json → Prop
  | .bool _ => True
  | .int _ => True
  | .float (.finite _) => True
  | .str s => (intLiteral? s).isSome
  | _ => False

instance (j : Json) : Decidable (Convertible j) :=
  match j with
  | .bool _ | .int _ | .float (.finite _) => inferInstanceAs (Decidable True)
  | .str _ => inferInstanceAs (Decidable (_ = true))
  | .null | .arr _ | .obj _ | .float .inf | .float .negInf | .float .nan =>
    inferInstanceAs (Decidable False)

theorem toInt_isOk_iff (j : Json) : (∃ n, j.toInt = .ok n) ↔ Convertible j := by
  cases j with
  | bool b => exact iff_of_true ⟨_, rfl⟩ trivial
  | int n => exact iff_of_true ⟨_, rfl⟩ trivial
  | float x => cases x <;> simp [Json.toInt, Convertible]
  | str s => cases h : intLiteral? s <;> simp [Json.toInt, Convertible, h]
  | null => simp [Json.toInt, Convertible]
  | arr items => simp [Json.toInt, Convertible]
  | obj entries => simp [Json.toInt, Convertible]

/-- The duration field is missing, falsy or a value `int` accepts. -/
def ReadableDuration (command : JsonObject) : Prop :=
  (command.getD "duration_seconds" (.int 300)).truthy = false ∨
    Convertible (command.getD "duration_seconds" (.int 300))

instance (command : JsonObject) : Decidable (ReadableDuration command) :=
  inferInstanceAs (Decidable (_ ∨ _))

theorem durationSeconds_isOk_iff (command : JsonObject) :
    (∃ n, durationSeconds command = .ok n) ↔ ReadableDuration command := by
  unfold durationSeconds ReadableDuration
  simp only
  cases htruthy : (command.getD "duration_seconds" (.int 300)).truthy with
  | false => exact iff_of_true ⟨300, rfl⟩ (Or.inl rfl)
  | true =>
    rw [if_pos rfl, toInt_isOk_iff]
    exact ⟨Or.inr, fun h => h.resolve_left Bool.noConfusion⟩

/-! ## The four ways a call ends -/

/-- The command gets past the checks on its own fields. -/
structure WellFormed (repr : Json → String) (command : JsonObject) : Prop where
  duration : ReadableDuration command
  action : action repr command ≠ ""
  ipAddress : ipAddress repr command ≠ ""

namespace PacketProcessor

variable {Φ Ω : Type} {repr : Json → String}

/-- The command has an id the store knows. -/
def Duplicate (p : PacketProcessor Φ repr) (command : JsonObject) : Prop :=
  commandId repr command ≠ "" ∧
    p.processedCommandStore.contains (commandId repr command) = true

instance (p : PacketProcessor Φ repr) (command : JsonObject) : Decidable (p.Duplicate command) :=
  inferInstanceAs (Decidable (_ ∧ _))

variable (fw : Option (FirewallAdapter Φ Ω)) (h : Host Ω) {command : JsonObject}
  (p : PacketProcessor Φ repr)

theorem applyBackendCommand_of_unreadable {e : PyError}
    (hduration : durationSeconds command = .error e) :
    applyBackendCommand fw h command p = (.error e, p) := by
  unfold applyBackendCommand
  rw [hduration, Effect.bind_of_error (Effect.ofExcept_apply _ _)]

theorem applyBackendCommand_of_blank {duration : ℤ}
    (hduration : durationSeconds command = .ok duration)
    (hblank : action repr command = "" ∨ ipAddress repr command = "") :
    applyBackendCommand fw h command p = (.ok (false, "invalid_command"), p) := by
  unfold applyBackendCommand
  rw [hduration, Effect.bind_of_ok (Effect.ofExcept_apply _ _), if_pos hblank]
  rfl

theorem applyBackendCommand_of_duplicate (hformed : WellFormed repr command)
    (hdup : p.Duplicate command) :
    applyBackendCommand fw h command p = (.ok (true, "duplicate_command"), p) := by
  obtain ⟨duration, hduration⟩ := (durationSeconds_isOk_iff command).mpr hformed.duration
  unfold Duplicate at hdup
  unfold applyBackendCommand
  rw [hduration, Effect.bind_of_ok (Effect.ofExcept_apply _ _),
    if_neg (not_or.mpr ⟨hformed.action, hformed.ipAddress⟩), Effect.bind_of_ok (Effect.get_apply _),
    if_pos hdup]
  rfl

theorem applyBackendCommand_of_fresh {duration : ℤ}
    (hduration : durationSeconds command = .ok duration) (haction : action repr command ≠ "")
    (hip : ipAddress repr command ≠ "") (hdup : ¬ p.Duplicate command) :
    applyBackendCommand fw h command p =
      attempt fw h (commandId repr command) (action repr command) (ipAddress repr command)
        duration p := by
  unfold Duplicate at hdup
  unfold applyBackendCommand
  rw [hduration, Effect.bind_of_ok (Effect.ofExcept_apply _ _),
    if_neg (not_or.mpr ⟨haction, hip⟩), Effect.bind_of_ok (Effect.get_apply _), if_neg hdup]

/-- A duplicate changes nothing, whatever its other fields are. -/
theorem applyBackendCommand_snd_of_duplicate (hdup : p.Duplicate command) :
    (applyBackendCommand fw h command p).2 = p := by
  cases hduration : durationSeconds command with
  | error e => rw [applyBackendCommand_of_unreadable fw h p hduration]
  | ok duration =>
    rcases em (action repr command = "" ∨ ipAddress repr command = "") with hblank | hblank
    · rw [applyBackendCommand_of_blank fw h p hduration hblank]
    · obtain ⟨haction, hip⟩ := not_or.mp hblank
      have hread := (durationSeconds_isOk_iff command).mp ⟨duration, hduration⟩
      rw [applyBackendCommand_of_duplicate fw h p ⟨hread, haction, hip⟩ hdup]

/-! ## Past the duplicate check -/

section Attempt

variable (commandId action ip : String) (duration : ℤ)

/-- The processor after the blocker was called and answered. -/
def afterCall (h : Host Ω) (commandId action ip : String) (ok : Bool) (b : AutoBlocker Φ)
    (p : PacketProcessor Φ repr) : PacketProcessor Φ repr :=
  if ok then commit h commandId action ip { p with autoBlocker := b }
  else { p with autoBlocker := b }

theorem autoBlocker_commit (h : Host Ω) (commandId action ip : String)
    (p : PacketProcessor Φ repr) :
    (commit h commandId action ip p).autoBlocker = p.autoBlocker := by
  unfold commit publishBlockEvent
  dsimp only
  split_ifs <;> rfl

theorem autoBlocker_afterCall (h : Host Ω) (commandId action ip : String) (ok : Bool)
    (b : AutoBlocker Φ) (p : PacketProcessor Φ repr) :
    (afterCall h commandId action ip ok b p).autoBlocker = b := by
  unfold afterCall
  split
  · exact autoBlocker_commit h commandId action ip _
  · rfl

theorem attempt_of_unsupported (hcall : blockerCall fw h action ip duration = none) :
    attempt fw h commandId action ip duration p = (.ok (false, "unsupported_action"), p) := by
  unfold attempt
  rw [hcall]
  rfl

theorem attempt_of_ok {call : Effect PyError (AutoBlocker Φ) (Bool × String)}
    {answer : Bool × String} {b : AutoBlocker Φ}
    (hcall : blockerCall fw h action ip duration = some call)
    (hok : call p.autoBlocker = (.ok answer, b)) :
    attempt fw h commandId action ip duration p =
      (.ok answer, afterCall h commandId action ip answer.1 b p) := by
  have hon : onBlocker call p = (.ok answer, { p with autoBlocker := b }) := by
    rw [onBlocker, Effect.zoom_apply, hok]
  unfold attempt afterCall
  rw [hcall]
  simp only
  rw [Effect.bind_of_ok hon]
  split_ifs <;> rfl

theorem attempt_of_error {call : Effect PyError (AutoBlocker Φ) (Bool × String)} {e : PyError}
    {b : AutoBlocker Φ} (hcall : blockerCall fw h action ip duration = some call)
    (herror : call p.autoBlocker = (.error e, b)) :
    attempt fw h commandId action ip duration p = (.error e, { p with autoBlocker := b }) := by
  have hon : onBlocker call p = (.error e, { p with autoBlocker := b }) := by
    rw [onBlocker, Effect.zoom_apply, herror]
  unfold attempt
  rw [hcall]
  simp only
  rw [Effect.bind_of_error hon]

/-- Only the call of a block can raise. -/
theorem blockerCall_returns_iff {call : Effect PyError (AutoBlocker Φ) (Bool × String)}
    (hcall : blockerCall fw h action ip duration = some call) (b : AutoBlocker Φ) :
    (∃ answer, (call b).1 = .ok answer) ↔
      (action = "block" → AutoBlocker.Enforceable fw h ip b →
        AutoBlocker.Recordable h (max 1 duration)) := by
  unfold blockerCall at hcall
  rcases em (action = "block") with hblock | hblock
  · rw [if_pos hblock, Option.some.injEq] at hcall
    rw [← hcall]
    refine (AutoBlocker.tempBlock_returns_iff fw h ip (max 1 duration) b).trans ?_
    exact ⟨fun hrec _ => hrec, fun hrec => hrec hblock⟩
  · refine iff_of_true ?_ fun h => absurd h hblock
    rw [if_neg hblock] at hcall
    split_ifs at hcall <;> (rw [Option.some.injEq] at hcall; rw [← hcall]; exact ⟨_, rfl⟩)

theorem attempt_returns_iff :
    (∃ answer, (attempt fw h commandId action ip duration p).1 = .ok answer) ↔
      (action = "block" → AutoBlocker.Enforceable fw h ip p.autoBlocker →
        AutoBlocker.Recordable h (max 1 duration)) := by
  cases hcall : blockerCall fw h action ip duration with
  | none =>
    rw [attempt_of_unsupported fw h p commandId action ip duration hcall]
    refine iff_of_true ⟨_, rfl⟩ fun hblock => ?_
    rw [blockerCall, if_pos hblock] at hcall
    cases hcall
  | some call =>
    rw [← blockerCall_returns_iff fw h action ip duration hcall p.autoBlocker]
    cases hrun : call p.autoBlocker with
    | mk result b =>
      cases result with
      | ok answer =>
        rw [attempt_of_ok fw h p commandId action ip duration hcall hrun]
      | error e => rw [attempt_of_error fw h p commandId action ip duration hcall hrun]

end Attempt

/-! ## Which commands return -/

/-- The command can be applied without an exception: its duration can be read,
and if it is a block that the firewall enforces, the deadline is a date. -/
structure Harmless (command : JsonObject) : Prop where
  duration : ReadableDuration command
  deadline : ∀ duration, durationSeconds command = .ok duration →
    action repr command = "block" → ipAddress repr command ≠ "" → ¬ p.Duplicate command →
    AutoBlocker.Enforceable fw h (ipAddress repr command) p.autoBlocker →
    AutoBlocker.Recordable h (max 1 duration)

/-- `apply_backend_command` returns exactly on the harmless commands. -/
theorem applyBackendCommand_returns_iff (command : JsonObject) :
    (∃ answer, (applyBackendCommand fw h command p).1 = .ok answer) ↔
      Harmless fw h p command := by
  cases hduration : durationSeconds command with
  | error e =>
    rw [applyBackendCommand_of_unreadable fw h p hduration]
    refine iff_of_false (by simp) fun hharmless => ?_
    obtain ⟨duration, hok⟩ := (durationSeconds_isOk_iff command).mpr hharmless.duration
    exact absurd (hduration.symm.trans hok) (by simp)
  | ok duration =>
    have hread : ReadableDuration command := (durationSeconds_isOk_iff command).mp ⟨_, hduration⟩
    have hunique : ∀ n, durationSeconds command = .ok n → n = duration := fun n hn =>
      Except.ok.inj (hn.symm.trans hduration)
    rcases em (action repr command = "" ∨ BackendCommand.ipAddress repr command = "") with
      hblank | hblank
    · rw [applyBackendCommand_of_blank fw h p hduration hblank]
      refine iff_of_true ⟨_, rfl⟩ ⟨hread, fun n _ hblock hip => ?_⟩
      rcases hblank with haction | hip'
      · exact absurd (hblock.symm.trans haction) (by simp)
      · exact absurd hip' hip
    · obtain ⟨haction, hip⟩ := not_or.mp hblank
      rcases em (p.Duplicate command) with hdup | hdup
      · rw [applyBackendCommand_of_duplicate fw h p ⟨hread, haction, hip⟩ hdup]
        exact iff_of_true ⟨_, rfl⟩ ⟨hread, fun n _ _ _ hnot => absurd hdup hnot⟩
      · rw [applyBackendCommand_of_fresh fw h p hduration haction hip hdup, attempt_returns_iff]
        refine ⟨fun hrec => ⟨hread, fun n hn hblock _ _ => ?_⟩, fun hharmless hblock => ?_⟩
        · rw [hunique n hn]
          exact hrec hblock
        · exact hharmless.deadline duration hduration hblock hip hdup

end PacketProcessor

end SmartIDS.PacketCapture
