import SmartIDS.PacketCapture.CommandChannel
import SmartIDS.ResponseEngine.BackendCommandPoller
set_option autoImplicit false

/-!
# PacketCapture: from the response to the applied commands

One turn of the poll loop, and one catch-up, with the poll they start from.  A
well-formed command is harmless to any engine, so once the poller returns the
commands of a response, each is applied and acknowledged.  The poller returns them
except from the success envelope.
-/

namespace SmartIDS.PacketCapture

open SmartIDS.Foundation SmartIDS.Python SmartIDS.ResponseEngine BackendCommand
  BackendCommandPoller

variable {Φ Ω : Type} {repr : Json → String}

/-! ## The commands of the backend -/

/-- A command of the API: an id that is not blank, one of the four actions, a
routable address, and a duration of at most a day. -/
structure EngineCommand (command : JsonObject) : Prop where
  commandId : ∃ id, command.getD "command_id" (.str "") = .str id ∧ strip id ≠ ""
  action : ∃ action ∈ ["block", "unblock", "watchlist", "unwatchlist"],
    command.getD "action" (.str "") = .str action
  ipAddress : ∃ ip, command.getD "ip_address" (.str "") = .str ip ∧
    AutoBlocker.isValidRoutableIp ip = true
  duration : ∃ seconds : ℤ, command.getD "duration_seconds" (.int 300) = .int seconds ∧
    1 ≤ seconds ∧ seconds ≤ 86400

/-- Commands with distinct ids. -/
structure EngineCommands (repr : Json → String) (commands : List JsonObject) : Prop where
  each : ∀ command ∈ commands, EngineCommand command
  distinct : (commands.map (commandId repr)).Nodup

theorem EngineCommand.commandId_ne {command : JsonObject} (h : EngineCommand command) :
    BackendCommand.commandId repr command ≠ "" := by
  obtain ⟨id, hid, hne⟩ := h.commandId
  unfold BackendCommand.commandId text
  rw [hid]
  exact hne

/-- A command of the API is harmless to any engine on any host. -/
theorem EngineCommand.harmless {command : JsonObject} (h : EngineCommand command)
    (fw : Option (FirewallAdapter Φ Ω)) (host : Host Ω) (p : PacketProcessor Φ repr) :
    PacketProcessor.Harmless fw host p command := by
  obtain ⟨seconds, hseconds, hpos, hday⟩ := h.duration
  have hread : durationSeconds command = .ok seconds := by
    have htruthy : (Json.int seconds).truthy = true := by
      show (seconds != 0) = true
      rw [bne_iff_ne]
      omega
    unfold durationSeconds
    rw [hseconds]
    simp only [htruthy, if_true]
    rfl
  refine ⟨(durationSeconds_isOk_iff command).mp ⟨_, hread⟩, ?_⟩
  intro n hn _ _ _ _
  rw [hread] at hn
  rw [← Except.ok.inj hn]
  exact AutoBlocker.recordable_of_day host (max_le (by norm_num) hday)

/-! ## Delivering what was polled -/

/-- The commands, each on the host it is applied on. -/
def deliveries (hosts : ℕ → Host Ω) (commands : List JsonObject) : List (Delivery Ω) :=
  commands.mapIdx fun i command => ⟨hosts i, command⟩

theorem map_command_deliveries (hosts : ℕ → Host Ω) (commands : List JsonObject) :
    (deliveries hosts commands).map Delivery.command = commands := by
  rw [deliveries, List.mapIdx_eq_zipIdx_map, List.map_map]
  exact List.zipIdx_map_fst 0 commands

namespace Channel

variable (fw : Option (FirewallAdapter Φ Ω)) (loads : JsonLoads)
  (fetched : Except PyError HttpResponse) (hosts : ℕ → Host Ω)

/-- One turn of `_poll_backend_commands`. -/
def pollOnce (ackEndpoint : String) : Effect PyError (Channel Φ repr) Unit := do
  let commands ← Effect.ofExcept (pollCommands loads fetched)
  pollBackendCommands fw ackEndpoint (deliveries hosts commands)

/-- `_run_catchup`. -/
def catchUp (catchupAckEndpointUrl : Option String) : Effect PyError (Channel Φ repr) Unit := do
  let commands ← Effect.ofExcept (pollCommands loads fetched)
  runCatchup fw catchupAckEndpointUrl (deliveries hosts commands)

end Channel

/-- Every command was applied once, in order, and acknowledged once, if
acknowledging is configured. -/
structure DeliveredOnce (fw : Option (FirewallAdapter Φ Ω)) (ds : List (Delivery Ω))
    (acknowledges : Bool) (c c' : Channel Φ repr) : Prop where
  served : Served fw (ds.map fun d => (d, acknowledges)) c c'
  acked : c'.acks.map Ack.commandId =
    c.acks.map Ack.commandId ++
      if acknowledges then ds.map fun d => commandId repr d.command else []

/-- The acknowledgements of answered commands, by id. -/
theorem map_commandId_acknowledgements (acknowledges : Bool) (ds : List (Delivery Ω))
    (results : List (Except PyError (Bool × String))) (hlength : results.length = ds.length)
    (hanswered : ∀ r ∈ results, ∃ answer, r = .ok answer)
    (hids : ∀ d ∈ ds, commandId repr d.command ≠ "") :
    (acknowledgements repr (ds.map fun d => (d, acknowledges)) results).map Ack.commandId =
      if acknowledges then ds.map fun d => commandId repr d.command else [] := by
  induction ds generalizing results with
  | nil =>
    split_ifs <;> rfl
  | cons d ds ih =>
    cases results with
    | nil => exact absurd hlength (Nat.succ_ne_zero _).symm
    | cons r results =>
      rw [List.forall_mem_cons] at hanswered hids
      obtain ⟨⟨answer, rfl⟩, hanswered⟩ := hanswered
      have hrest := ih results (Nat.succ.inj hlength) hanswered hids.2
      rw [List.map_cons, Task.acknowledgements_cons, List.map_append, hrest, ackOf, if_neg hids.1]
      cases acknowledges <;> rfl

/-- A REST loop over commands of the API delivers each once. -/
theorem restLoop_delivers (fw : Option (FirewallAdapter Φ Ω)) (configured : Prop)
    [Decidable configured] {ds : List (Delivery Ω)}
    (hds : ∀ d ∈ ds, EngineCommand d.command) (c : Channel Φ repr) :
    ∃ c', ds.forM (fun d => (do
          let answer ← Channel.applyCommand fw d
          if configured then
            Effect.modify (Channel.ackCommand d.command answer) :
          Effect PyError (Channel Φ repr) Unit)) c = (.ok (), c') ∧
      DeliveredOnce fw ds (decide configured) c c' := by
  have hguard : (commandMachine fw).Guarded (HarmlessTo fw) c.processor ds :=
    (commandMachine fw).guarded_of_forall (fun d hd p => (hds d hd).harmless fw d.host p) _
  obtain ⟨c', hend, hserved⟩ := (restLoop_served_iff fw configured ds c).mpr hguard
  refine ⟨c', hend, hserved, ?_⟩
  have hlength : ((commandMachine fw).trace c.processor
      ((ds.map fun d => (d, decide configured)).map Prod.fst)).length = ds.length := by
    rw [Machine.length_trace, List.length_map, List.length_map]
  rw [hserved.acknowledged, List.map_append,
    map_commandId_acknowledgements _ _ _ hlength hserved.answered
      fun d hd => (hds d hd).commandId_ne]

/-! ## Which responses are seen -/

/-- If `json.loads` reads the text, it reads this document. -/
def Denotes (loads : JsonLoads) (text : String) (json : Json) : Prop :=
  ∀ j, loads text = .ok j → j = json

/-- A successful response whose body carries a list, in one of the forms. -/
structure CarriesCommands (loads : JsonLoads) (response : HttpResponse) (shape : Shape)
    (items : List Json) : Prop where
  succeeded : response.Succeeded
  document : ∃ text json, String.fromUTF8? response.body = some text ∧
    Denotes loads text json ∧ Carries items shape json

/-- The commands are polled, and both loops deliver each of them once. -/
structure DeliversAll (repr : Json → String) (fw : Option (FirewallAdapter Φ Ω))
    (loads : JsonLoads) (response : HttpResponse) (commands : List JsonObject) : Prop where
  polled : pollCommands loads (.ok response) = .ok commands
  poll : ∀ (ackEndpoint : String) (hosts : ℕ → Host Ω) (c : Channel Φ repr), ∃ c',
    Channel.pollOnce fw loads (.ok response) hosts ackEndpoint c = (.ok (), c') ∧
      DeliveredOnce fw (deliveries hosts commands) (decide (ackEndpoint ≠ "")) c c'
  catchUp : ∀ (catchupAckEndpointUrl : Option String) (hosts : ℕ → Host Ω) (c : Channel Φ repr),
    ∃ c', Channel.catchUp fw loads (.ok response) hosts catchupAckEndpointUrl c = (.ok (), c') ∧
      DeliveredOnce fw (deliveries hosts commands) (decide (catchupAckEndpointUrl ≠ none)) c c'

/-- What the poller returns, the loops deliver. -/
theorem deliversAll_iff (fw : Option (FirewallAdapter Φ Ω)) (loads : JsonLoads)
    (response : HttpResponse) {commands : List JsonObject}
    (hcommands : EngineCommands repr commands) :
    DeliversAll repr fw loads response commands ↔
      pollCommands loads (.ok response) = .ok commands := by
  refine ⟨DeliversAll.polled, fun hpolled => ?_⟩
  have hdeliveries : ∀ (hosts : ℕ → Host Ω), ∀ d ∈ deliveries hosts commands,
      EngineCommand d.command := by
    intro hosts d hd
    have hmem := List.mem_map_of_mem (f := Delivery.command) hd
    rw [map_command_deliveries] at hmem
    exact hcommands.each _ hmem
  have hreturned : ∀ c : Channel Φ repr,
      (Effect.ofExcept (pollCommands loads (.ok response)) :
        Effect PyError (Channel Φ repr) (List JsonObject)) c = (.ok commands, c) := by
    intro c
    rw [Effect.ofExcept_apply, hpolled]
  refine ⟨hpolled, fun ackEndpoint hosts c => ?_, fun url hosts c => ?_⟩
  · unfold Channel.pollOnce
    rw [Effect.bind_of_ok (hreturned c)]
    exact restLoop_delivers fw (ackEndpoint ≠ "") (hdeliveries hosts) c
  · unfold Channel.catchUp
    rw [Effect.bind_of_ok (hreturned c)]
    exact restLoop_delivers fw (url ≠ none) (hdeliveries hosts) c

/-- `json.loads` reads the body, and the list is not in the envelope unless it is
empty; or it refuses the body of a list without commands, and the poller catches it. -/
def Seen (loads : JsonLoads) (response : HttpResponse) (shape : Shape)
    (commands : List JsonObject) : Prop :=
  ∃ text, String.fromUTF8? response.body = some text ∧
    (((∃ json, loads text = .ok json) ∧ (shape = .envelope → commands = [])) ∨
      ((∃ e, loads text = .error e ∧ Caught e) ∧ commands = []))

/-- The poller returns the commands of a response exactly if they are seen. -/
theorem pollCommands_eq_iff {loads : JsonLoads} {response : HttpResponse} {shape : Shape}
    {items : List Json} (h : CarriesCommands loads response shape items) :
    pollCommands loads (.ok response) = .ok (objects items) ↔
      Seen loads response shape (objects items) := by
  obtain ⟨hstatus, text, json, htext, hdenotes, hcarries⟩ := h
  have hseen : Seen loads response shape (objects items) ↔
      ((∃ json, loads text = .ok json) ∧ (shape = .envelope → objects items = [])) ∨
        ((∃ e, loads text = .error e ∧ Caught e) ∧ objects items = []) := by
    unfold Seen
    rw [htext]
    constructor
    · rintro ⟨other, hother, hcases⟩
      rw [Option.some.inj hother]
      exact hcases
    · exact fun hcases => ⟨text, rfl, hcases⟩
  rw [hseen]
  cases hloads : loads text with
  | ok j =>
    obtain rfl := hdenotes j hloads
    rw [pollCommands_of_loads hstatus htext hloads, commandsOf_of_carries hcarries,
      Except.ok.injEq]
    constructor
    · intro heq
      refine Or.inl ⟨⟨j, rfl⟩, fun hshape => ?_⟩
      rw [if_pos hshape] at heq
      exact heq.symm
    · rintro (⟨-, hempty⟩ | ⟨⟨e, he, -⟩, -⟩)
      · split_ifs with hshape
        · exact (hempty hshape).symm
        · rfl
      · cases he
  | error e =>
    rw [pollCommands_of_raises hstatus htext hloads]
    constructor
    · intro heq
      split_ifs at heq with hcaught
      exact Or.inr ⟨⟨e, rfl, hcaught⟩, (Except.ok.inj heq).symm⟩
    · rintro (⟨⟨j, hj⟩, -⟩ | ⟨⟨e', he', hcaught⟩, hempty⟩)
      · cases hj
      · rw [Except.error.inj he', if_pos hcaught, hempty]

/-- A body without a list: the poller returns nothing, unless `json.loads` raises
something that it does not catch. -/
theorem pollCommands_eq_nil_iff {loads : JsonLoads} {response : HttpResponse}
    (hstatus : response.Succeeded)
    (hnone : ∀ text json, String.fromUTF8? response.body = some text →
      loads text = .ok json → CarriesNone json) :
    pollCommands loads (.ok response) = .ok [] ↔
      ∀ text e, String.fromUTF8? response.body = some text → loads text = .error e →
        Caught e := by
  cases htext : String.fromUTF8? response.body with
  | none =>
    rw [pollCommands_of_undecodable hstatus htext]
    refine iff_of_true rfl fun text e heq => ?_
    cases heq
  | some text =>
    cases hloads : loads text with
    | ok json =>
      rw [pollCommands_of_loads hstatus htext hloads,
        commandsOf_of_carriesNone (hnone text json htext hloads)]
      refine iff_of_true rfl fun other e heq herror => ?_
      rw [← Option.some.inj heq, hloads] at herror
      cases herror
    | error e =>
      rw [pollCommands_of_raises hstatus htext hloads]
      constructor
      · intro heq other e' hother herror
        rw [← Option.some.inj hother, hloads] at herror
        rw [← Except.error.inj herror]
        split_ifs at heq with hcaught
        exact hcaught
      · intro hcaught
        rw [if_pos (hcaught text e rfl hloads)]

/-- Every pending command of a response is delivered by one turn of the poll loop,
and by one catch-up, exactly if it is seen; a body without a list of commands, such
as the error envelope, yields none exactly if `json.loads` raises nothing uncaught. -/
theorem pending_commands_delivered_iff (repr : Json → String)
    (fw : Option (FirewallAdapter Φ Ω)) (loads : JsonLoads) (response : HttpResponse) :
    (∀ (shape : Shape) (items : List Json) (commands : List JsonObject),
      CarriesCommands loads response shape items → objects items = commands →
        EngineCommands repr commands →
          (DeliversAll repr fw loads response commands ↔ Seen loads response shape commands)) ∧
    (response.Succeeded →
      (∀ text json, String.fromUTF8? response.body = some text → loads text = .ok json →
        CarriesNone json) →
      (pollCommands loads (.ok response) = .ok [] ↔
        ∀ text e, String.fromUTF8? response.body = some text → loads text = .error e →
          Caught e)) ∧
    ∀ entries, IsErrorEnvelope entries → CarriesNone (.obj entries) := by
  refine ⟨?_, pollCommands_eq_nil_iff, fun _ => carriesNone_of_isErrorEnvelope⟩
  rintro shape items commands hcarries rfl hcommands
  exact (deliversAll_iff fw loads response hcommands).trans (pollCommands_eq_iff hcarries)

/-- `json.loads`, on one text. -/
def loadsOnly (text : String) (json : Json) : JsonLoads := fun other =>
  if other = text then .ok json else .error .jsonDecodeError

/-- A block that waits at the backend. -/
def pendingBlock : JsonObject :=
  [("command_id", .str "c1"), ("action", .str "block"), ("ip_address", .str "203.0.113.9"),
    ("duration_seconds", .int 300), ("status", .str "pending")]

def pendingBlockText : String :=
  "\x7b\"command_id\": \"c1\", \"action\": \"block\", \"ip_address\": \"203.0.113.9\", " ++
    "\"duration_seconds\": 300, \"status\": \"pending\"\x7d"

theorem engineCommands_pendingBlock : EngineCommands (fun _ => "") [pendingBlock] where
  each command hmem := by
    obtain rfl := List.mem_singleton.mp hmem
    exact ⟨⟨"c1", rfl, by decide⟩, ⟨"block", by decide, rfl⟩,
      ⟨"203.0.113.9", rfl, by decide +kernel⟩, ⟨300, rfl, by decide, by decide⟩⟩
  distinct := List.nodup_singleton _

/-- The bare list, with something else before the command. -/
def bareText : String := "[null, " ++ pendingBlockText ++ "]"

/-- A command in a bare list is delivered. -/
theorem pending_commands_delivered_bare :
    DeliversAll (fun _ => "") (none : Option (FirewallAdapter Unit Unit))
      (loadsOnly bareText (.arr [.null, .obj pendingBlock])) ⟨200, bareText.toUTF8⟩
      [pendingBlock] := by
  have hloads : loadsOnly bareText (.arr [.null, .obj pendingBlock]) bareText =
      .ok (.arr [.null, .obj pendingBlock]) := if_pos rfl
  refine ((pending_commands_delivered_iff (fun _ => "") none _ ⟨200, bareText.toUTF8⟩).1 .bare
    [.null, .obj pendingBlock] [pendingBlock] ⟨by decide, bareText, _, fromUTF8?_toUTF8 _, ?_, rfl⟩
    rfl engineCommands_pendingBlock).mpr ?_
  · intro j hj
    rw [hloads] at hj
    exact (Except.ok.inj hj).symm
  · refine ⟨bareText, fromUTF8?_toUTF8 _, Or.inl ⟨⟨_, hloads⟩, fun hshape => ?_⟩⟩
    cases hshape

/-- The success envelope of the API, with the command under `data`. -/
def pendingEnvelope : JsonObject :=
  [("success", .bool true), ("message", .str "ok"),
    ("data", .obj [("commands", .arr [.obj pendingBlock])]),
    ("meta", .obj [("timestamp", .str "2026-01-01T00:00:00Z"), ("request_id", .str "r1")])]

def pendingEnvelopeText : String :=
  "\x7b\"success\": true, \"message\": \"ok\", \"data\": \x7b\"commands\": [" ++ pendingBlockText ++
    "]\x7d, \"meta\": \x7b\"timestamp\": \"2026-01-01T00:00:00Z\", \"request_id\": \"r1\"\x7d\x7d"

/-- A block in the success envelope is never seen. -/
theorem enveloped_block_unseen :
    ¬ ∀ (loads : JsonLoads) (response : HttpResponse) (shape : Shape) (items : List Json)
      (commands : List JsonObject),
      CarriesCommands loads response shape items → objects items = commands →
        EngineCommands (fun _ => "") commands →
          DeliversAll (fun _ => "") (none : Option (FirewallAdapter Unit Unit)) loads response
            commands := by
  intro hclaim
  have hloads : loadsOnly pendingEnvelopeText (.obj pendingEnvelope) pendingEnvelopeText =
      .ok (.obj pendingEnvelope) := if_pos rfl
  have henvelope : IsEnvelope (.obj [("commands", .arr [.obj pendingBlock])]) pendingEnvelope :=
    ⟨_, _, List.Perm.refl _⟩
  have hsucceeded : HttpResponse.Succeeded ⟨200, pendingEnvelopeText.toUTF8⟩ := by decide
  have htext := fromUTF8?_toUTF8 pendingEnvelopeText
  have hpolled := (hclaim (loadsOnly pendingEnvelopeText (.obj pendingEnvelope))
    ⟨200, pendingEnvelopeText.toUTF8⟩ .envelope [.obj pendingBlock] [pendingBlock]
    ⟨hsucceeded, pendingEnvelopeText, .obj pendingEnvelope, htext, fun j hj =>
      (Except.ok.inj (hloads.symm.trans hj)).symm, henvelope⟩ rfl
    engineCommands_pendingBlock).polled
  rw [pollCommands_of_loads hsucceeded htext hloads, commandsOf_envelope henvelope] at hpolled
  exact absurd (Except.ok.inj hpolled) (List.cons_ne_nil _ _).symm

end SmartIDS.PacketCapture
