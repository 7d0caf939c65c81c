import SmartIDS.PacketCapture.CommandSpec
set_option autoImplicit false

/-!
# PacketCapture: when the command channel stalls

Neither delivery loop guards the call of `apply_backend_command`, so one command
that raises ends the loop and the commands behind it are not applied.  The loops
differ only in how they acknowledge; each is a list of tasks, and the theorem
about them is one theorem about tasks: a loop comes to its end exactly when every
command was harmless in its turn.
-/

namespace SmartIDS.PacketCapture

open SmartIDS.Foundation SmartIDS.Python SmartIDS.ResponseEngine BackendCommand

variable {Φ Ω : Type} {repr : Json → String}

/-- The engine under a sequence of commands, none of which stops it. -/
def commandMachine (fw : Option (FirewallAdapter Φ Ω)) :
    Machine (PacketProcessor Φ repr) (Delivery Ω) (Except PyError (Bool × String)) where
  step p d :=
    ((PacketProcessor.applyBackendCommand fw d.host d.command p).2,
      (PacketProcessor.applyBackendCommand fw d.host d.command p).1)

/-- The delivered command is harmless to the engine as it stands. -/
def HarmlessTo (fw : Option (FirewallAdapter Φ Ω)) (p : PacketProcessor Φ repr)
    (d : Delivery Ω) : Prop :=
  PacketProcessor.Harmless fw d.host p d.command

/-- The acknowledgement of an answered command, if it has an id. -/
def ackOf (repr : Json → String) (d : Delivery Ω) (answer : Bool × String) : List Ack :=
  if commandId repr d.command = "" then []
  else [⟨commandId repr d.command, Channel.ackStatus answer⟩]

/-- The acknowledgements due for a list of commands, each with whether it is
acknowledged over REST, and their results. -/
def acknowledgements (repr : Json → String) (ds : List (Delivery Ω × Bool))
    (results : List (Except PyError (Bool × String))) : List Ack :=
  (ds.zip results).flatMap fun e =>
    match e.2 with
    | .ok answer => if e.1.2 then ackOf repr e.1.1 answer else []
    | .error _ => []

/-- Every command of the list was answered, applied in order, and acknowledged in
order with its status. -/
structure Served (fw : Option (FirewallAdapter Φ Ω)) (ds : List (Delivery Ω × Bool))
    (c c' : Channel Φ repr) : Prop where
  answered : ∀ r ∈ (commandMachine fw).trace c.processor (ds.map Prod.fst),
    ∃ answer, r = .ok answer
  applied : c'.processor = (commandMachine fw).exec c.processor (ds.map Prod.fst)
  acknowledged : c'.acks = c.acks ++
    acknowledgements repr ds ((commandMachine fw).trace c.processor (ds.map Prod.fst))

/-! ## Tasks -/

/-- One turn of a delivery loop: the command, and what follows its answer. -/
structure Task (Φ Ω : Type) (repr : Json → String) where
  delivery : Delivery Ω
  acknowledges : Bool
  finish : Bool × String → Channel Φ repr → Channel Φ repr
  processor_finish : ∀ answer c, (finish answer c).processor = c.processor
  acks_finish : ∀ answer c, (finish answer c).acks =
    c.acks ++ if acknowledges then ackOf repr delivery answer else []

namespace Task

/-- The turn. -/
def run (fw : Option (FirewallAdapter Φ Ω)) (t : Task Φ Ω repr) :
    Effect PyError (Channel Φ repr) Unit := do
  let answer ← Channel.applyCommand fw t.delivery
  Effect.modify (t.finish answer)

/-- The command of a task, with whether it is acknowledged over REST. -/
def command (t : Task Φ Ω repr) : Delivery Ω × Bool := (t.delivery, t.acknowledges)

/-- The engine after the command of a task. -/
def engineAfter (fw : Option (FirewallAdapter Φ Ω)) (t : Task Φ Ω repr) (c : Channel Φ repr) :
    PacketProcessor Φ repr :=
  (PacketProcessor.applyBackendCommand fw t.delivery.host t.delivery.command c.processor).2

/-- A turn whose command raises stops there. -/
theorem run_of_error {fw : Option (FirewallAdapter Φ Ω)} {t : Task Φ Ω repr} {c : Channel Φ repr}
    {e : PyError} (h : (PacketProcessor.applyBackendCommand fw t.delivery.host t.delivery.command
      c.processor).1 = .error e) :
    t.run fw c = (.error e, { c with processor := t.engineAfter fw c }) := by
  have happly : Channel.applyCommand fw t.delivery c =
      (.error e, { c with processor := t.engineAfter fw c }) := by
    rw [Channel.applyCommand, Effect.zoom_apply, h]
    rfl
  exact Effect.bind_of_error happly

theorem run_of_ok {fw : Option (FirewallAdapter Φ Ω)} {t : Task Φ Ω repr} {c : Channel Φ repr}
    {answer : Bool × String} (h : (PacketProcessor.applyBackendCommand fw t.delivery.host
      t.delivery.command c.processor).1 = .ok answer) :
    t.run fw c = (.ok (), t.finish answer { c with processor := t.engineAfter fw c }) := by
  have happly : Channel.applyCommand fw t.delivery c =
      (.ok answer, { c with processor := t.engineAfter fw c }) := by
    rw [Channel.applyCommand, Effect.zoom_apply, h]
    rfl
  exact Effect.bind_of_ok happly

/-- The acknowledgements for a list that starts with an answered command. -/
theorem acknowledgements_cons (d : Delivery Ω × Bool) (ds : List (Delivery Ω × Bool))
    (answer : Bool × String) (results : List (Except PyError (Bool × String))) :
    acknowledgements repr (d :: ds) (.ok answer :: results) =
      (if d.2 then ackOf repr d.1 answer else []) ++ acknowledgements repr ds results := rfl

/-- Serving the first command and then the others. -/
theorem served_cons {fw : Option (FirewallAdapter Φ Ω)} {t : Task Φ Ω repr}
    {ts : List (Task Φ Ω repr)} {c c' : Channel Φ repr} {answer : Bool × String}
    (hok : (PacketProcessor.applyBackendCommand fw t.delivery.host t.delivery.command
      c.processor).1 = .ok answer)
    (hserved : Served fw (ts.map command)
      (t.finish answer { c with processor := t.engineAfter fw c }) c') :
    Served fw ((t :: ts).map command) c c' := by
  obtain ⟨hanswered, happlied, hacks⟩ := hserved
  rw [t.processor_finish] at hanswered happlied hacks
  have htrace : (commandMachine fw).trace c.processor (((t :: ts).map command).map Prod.fst) =
      .ok answer :: (commandMachine fw).trace (t.engineAfter fw c)
        ((ts.map command).map Prod.fst) := by
    rw [← hok]
    rfl
  refine ⟨?_, happlied, ?_⟩
  · rw [htrace]
    exact List.forall_mem_cons.mpr ⟨⟨answer, rfl⟩, hanswered⟩
  · rw [hacks, t.acks_finish, htrace, List.map_cons, acknowledgements_cons, List.append_assoc]
    rfl

/-- A list of turns comes to its end exactly when every command is harmless in
its turn, and then it has served them all. -/
theorem forM_run (fw : Option (FirewallAdapter Φ Ω)) (ts : List (Task Φ Ω repr))
    (c : Channel Φ repr) :
    ((commandMachine fw).Guarded (HarmlessTo fw) c.processor (ts.map delivery) →
        ∃ c', ts.forM (run fw) c = (.ok (), c') ∧ Served fw (ts.map command) c c') ∧
      ((ts.forM (run fw) c).1 = .ok () →
        (commandMachine fw).Guarded (HarmlessTo fw) c.processor (ts.map delivery)) := by
  induction ts generalizing c with
  | nil =>
    refine ⟨fun _ => ⟨c, rfl, ?_, rfl, ?_⟩, fun _ => trivial⟩
    · exact fun r hr => absurd hr List.not_mem_nil
    · exact (List.append_nil c.acks).symm
  | cons t ts ih =>
    have hreturns := PacketProcessor.applyBackendCommand_returns_iff fw t.delivery.host c.processor
      t.delivery.command
    refine ⟨fun hguard => ?_, fun hend => ?_⟩
    · obtain ⟨hharmless, hrest⟩ := hguard
      obtain ⟨answer, hok⟩ := hreturns.mpr hharmless
      have hnext := ih (t.finish answer { c with processor := t.engineAfter fw c })
      rw [t.processor_finish] at hnext
      obtain ⟨c', hforM, hserved⟩ := hnext.1 hrest
      refine ⟨c', ?_, served_cons hok hserved⟩
      rw [Effect.forM_cons_of_ok ts (run_of_ok hok)]
      exact hforM
    · cases hresult : (PacketProcessor.applyBackendCommand fw t.delivery.host t.delivery.command
        c.processor).1 with
      | error e =>
        rw [Effect.forM_cons_of_error ts (run_of_error hresult)] at hend
        cases hend
      | ok answer =>
        rw [Effect.forM_cons_of_ok ts (run_of_ok hresult)] at hend
        have hrest := (ih _).2 hend
        rw [t.processor_finish] at hrest
        exact ⟨hreturns.mp ⟨answer, hresult⟩, hrest⟩

/-- What a loop that came to its end has done. -/
theorem forM_run_iff (fw : Option (FirewallAdapter Φ Ω)) (ts : List (Task Φ Ω repr))
    (c : Channel Φ repr) :
    (∃ c', ts.forM (run fw) c = (.ok (), c') ∧ Served fw (ts.map command) c c') ↔
      (commandMachine fw).Guarded (HarmlessTo fw) c.processor (ts.map delivery) := by
  refine ⟨fun hserved => ?_, (forM_run fw ts c).1⟩
  obtain ⟨c', hend, -⟩ := hserved
  exact (forM_run fw ts c).2 (by rw [hend])

end Task

/-! ## The poll loop -/

section Poll

variable (fw : Option (FirewallAdapter Φ Ω)) (ackEndpoint : String)

theorem processor_ackCommand (command : JsonObject) (answer : Bool × String)
    (c : Channel Φ repr) : (c.ackCommand command answer).processor = c.processor := by
  unfold Channel.ackCommand
  simp only
  split_ifs <;> rfl

theorem acks_ackCommand (d : Delivery Ω) (answer : Bool × String) (c : Channel Φ repr) :
    (c.ackCommand d.command answer).acks = c.acks ++ ackOf repr d answer := by
  unfold Channel.ackCommand ackOf
  simp only
  split_ifs
  · exact (List.append_nil _).symm
  · rfl

/-- A command acknowledged over REST, if `acknowledges`. -/
def restTask (acknowledges : Bool) (d : Delivery Ω) : Task Φ Ω repr where
  delivery := d
  acknowledges := acknowledges
  finish answer c := if acknowledges then c.ackCommand d.command answer else c
  processor_finish answer c := by
    split_ifs
    · exact processor_ackCommand d.command answer c
    · rfl
  acks_finish answer c := by
    split_ifs
    · exact acks_ackCommand d answer c
    · exact (List.append_nil _).symm

/-- Applying a command and acknowledging it over REST, if that is configured, is a
task. -/
theorem apply_ack_eq_run (configured : Prop) [Decidable configured] (d : Delivery Ω) :
    (do
      let answer ← Channel.applyCommand fw d
      if configured then
        Effect.modify (Channel.ackCommand d.command answer) : Effect PyError (Channel Φ repr) Unit) =
      (restTask (decide configured) d).run fw := by
  funext c
  unfold Task.run
  rw [Effect.bind_apply, Effect.bind_apply]
  rcases em configured with hack | hack
  · simp only [restTask, hack, decide_true, if_true]
  · simp only [restTask, hack, decide_false, if_false]
    cases Channel.applyCommand fw d c with
    | mk result c' => cases result <;> rfl

/-- The commands of a list of polls, each with whether it is acknowledged. -/
def polled (ackEndpoint : String) (polls : List (List (Delivery Ω))) :
    List (Delivery Ω × Bool) :=
  polls.flatten.map fun d => (d, decide (ackEndpoint ≠ ""))

/-- A loop that applies commands and acknowledges them over REST, if that is
configured, comes to its end exactly when every command is harmless in its turn. -/
theorem restLoop_served_iff (configured : Prop) [Decidable configured] (ds : List (Delivery Ω))
    (c : Channel Φ repr) :
    (∃ c', ds.forM (fun d => (do
          let answer ← Channel.applyCommand fw d
          if configured then
            Effect.modify (Channel.ackCommand d.command answer) :
          Effect PyError (Channel Φ repr) Unit)) c = (.ok (), c') ∧
        Served fw (ds.map fun d => (d, decide configured)) c c') ↔
      (commandMachine fw).Guarded (HarmlessTo fw) c.processor ds := by
  simp only [apply_ack_eq_run]
  rw [← Effect.forM_map]
  have htasks := Task.forM_run_iff fw (ds.map (restTask (decide configured))) c
  rw [List.map_map, List.map_map] at htasks
  refine htasks.trans (iff_of_eq ?_)
  congr 1
  exact List.map_id ds

theorem pollLoop_served_iff (polls : List (List (Delivery Ω))) (c : Channel Φ repr) :
    (∃ c', Channel.pollLoop fw ackEndpoint polls c = (.ok (), c') ∧
        Served fw (polled ackEndpoint polls) c c') ↔
      (commandMachine fw).Guarded (HarmlessTo fw) c.processor polls.flatten := by
  have hloop : (Channel.pollLoop fw ackEndpoint polls : Effect PyError (Channel Φ repr) Unit) =
      polls.flatten.forM (Channel.pollCommand fw ackEndpoint) := Effect.forM_flatten polls
  rw [hloop]
  exact restLoop_served_iff fw (ackEndpoint ≠ "") polls.flatten c

end Poll

/-! ## The WebSocket client -/

section WebSocket

variable (fw : Option (FirewallAdapter Φ Ω)) (catchupAckEndpointUrl : Option String)

/-- A pushed command, acknowledged through the publisher and not over REST. -/
def pushTask (frame : Delivery Ω × Bool) : Task Φ Ω repr where
  delivery := frame.1
  acknowledges := false
  finish answer c :=
    if commandId repr frame.1.command ≠ "" ∧ frame.2 = true then
      { c with pushedAcks :=
          c.pushedAcks ++ [⟨commandId repr frame.1.command, Channel.ackStatus answer⟩] }
    else c
  processor_finish answer c := by split_ifs <;> rfl
  acks_finish answer c := by
    rw [if_neg Bool.false_ne_true, List.append_nil]
    split_ifs <;> rfl

theorem handleCommand_eq_run (frame : Delivery Ω × Bool) :
    (Channel.handleCommand fw frame.2 frame.1 : Effect PyError (Channel Φ repr) Unit) =
      (pushTask frame).run fw := by
  funext c
  unfold Channel.handleCommand Task.run
  rw [Effect.bind_apply, Effect.bind_apply]
  simp only [pushTask]
  cases Channel.applyCommand fw frame.1 c with
  | mk result c' =>
    cases result with
    | error e => rfl
    | ok answer =>
      simp only [Effect.modify_apply]
      split_ifs <;> rfl

/-- The commands of a connection, each with whether it is acknowledged over REST. -/
def delivered (catchupAckEndpointUrl : Option String) (connection : Connection Ω) :
    List (Delivery Ω × Bool) :=
  connection.catchup.map (fun d => (d, decide (catchupAckEndpointUrl ≠ none))) ++
    connection.pushed.map fun frame => (frame.1, false)

/-- A connection as tasks. -/
def connectionTasks (connection : Connection Ω) : List (Task Φ Ω repr) :=
  connection.catchup.map (restTask (decide (catchupAckEndpointUrl ≠ none))) ++
    connection.pushed.map pushTask

theorem runConnection_eq_forM (connection : Connection Ω) :
    (Channel.runConnection fw catchupAckEndpointUrl connection :
        Effect PyError (Channel Φ repr) Unit) =
      (connectionTasks catchupAckEndpointUrl connection).forM (Task.run fw) := by
  rw [connectionTasks, Effect.forM_append, Effect.forM_map, Effect.forM_map]
  simp only [← apply_ack_eq_run, ← handleCommand_eq_run]
  rfl

theorem map_command_connectionTasks (connection : Connection Ω) :
    (connectionTasks catchupAckEndpointUrl connection : List (Task Φ Ω repr)).map Task.command =
      delivered catchupAckEndpointUrl connection := by
  rw [connectionTasks, List.map_append, List.map_map, List.map_map]
  rfl

/-- As long as no connection is cut short, the connections together are one loop
over their tasks. -/
theorem connections_eq_forM (conns : List (Connection Ω)) (c : Channel Φ repr) :
    ((∀ r ∈ (Channel.connections fw catchupAckEndpointUrl).trace c conns, r = .ok ()) ↔
        ((conns.flatMap (connectionTasks catchupAckEndpointUrl)).forM (Task.run fw) c).1 =
          .ok ()) ∧
      (((conns.flatMap (connectionTasks catchupAckEndpointUrl)).forM (Task.run fw) c).1 =
          .ok () →
        (Channel.connections fw catchupAckEndpointUrl).exec c conns =
          ((conns.flatMap (connectionTasks catchupAckEndpointUrl)).forM (Task.run fw) c).2) := by
  induction conns generalizing c with
  | nil => exact ⟨⟨fun _ => rfl, fun _ r hr => absurd hr List.not_mem_nil⟩, fun _ => rfl⟩
  | cons conn conns ih =>
    rw [List.flatMap_cons, Effect.forM_append, ← runConnection_eq_forM]
    rw [Machine.trace_cons, Machine.exec_cons, List.forall_mem_cons]
    cases hrun : Channel.runConnection fw catchupAckEndpointUrl conn c with
    | mk result c' =>
      have hstep : (Channel.connections fw catchupAckEndpointUrl).step c conn = (c', result) := by
        show ((Channel.runConnection fw catchupAckEndpointUrl conn c).2,
          (Channel.runConnection fw catchupAckEndpointUrl conn c).1) = _
        rw [hrun]
      rw [hstep]
      cases result with
      | error e =>
        rw [Effect.bind_of_error hrun]
        refine ⟨iff_of_false (fun hall => ?_) (by simp), fun hend => ?_⟩
        · exact absurd hall.1 (by simp)
        · exact absurd hend (by simp)
      | ok u =>
        rw [Effect.bind_of_ok hrun, ← (ih c').1]
        exact ⟨⟨fun hall => hall.2, fun hall => ⟨rfl, hall⟩⟩, fun hend => (ih c').2 ((ih c').1.mp hend)⟩

theorem connections_served_iff (conns : List (Connection Ω)) (c : Channel Φ repr) :
    ((∀ r ∈ (Channel.connections fw catchupAckEndpointUrl).trace c conns, r = .ok ()) ∧
        Served fw (conns.flatMap (delivered catchupAckEndpointUrl)) c
          ((Channel.connections fw catchupAckEndpointUrl).exec c conns)) ↔
      (commandMachine fw).Guarded (HarmlessTo fw) c.processor
        ((conns.flatMap (delivered catchupAckEndpointUrl)).map Prod.fst) := by
  have hcommands : (conns.flatMap fun conn =>
      (connectionTasks catchupAckEndpointUrl conn : List (Task Φ Ω repr))).map Task.command =
        conns.flatMap (delivered catchupAckEndpointUrl) := by
    rw [List.map_flatMap]
    simp only [map_command_connectionTasks]
  have htasks := Task.forM_run_iff fw
    (conns.flatMap (connectionTasks catchupAckEndpointUrl)) c
  obtain ⟨htrace, hexec⟩ := connections_eq_forM fw catchupAckEndpointUrl conns c
  rw [← hcommands, List.map_map]
  refine Iff.trans ⟨fun hall => ?_, fun hloop => ?_⟩ htasks
  · have hend := htrace.mp hall.1
    have hserved := hall.2
    rw [hexec hend] at hserved
    exact ⟨_, Prod.ext hend rfl, hserved⟩
  · obtain ⟨c', hrun, hserved⟩ := hloop
    have hend : ((conns.flatMap (connectionTasks catchupAckEndpointUrl)).forM
        (Task.run fw) c).1 = .ok () := by rw [hrun]
    refine ⟨htrace.mpr hend, ?_⟩
    rw [hexec hend, hrun]
    exact hserved

end WebSocket

/-! ## The channel -/

/-- `apply_backend_command` returns exactly on the harmless commands; the poll
loop serves every command of every poll, and the WebSocket client every command
of every connection, exactly when each was harmless to the engine in its turn. -/
theorem channel_serves_iff (fw : Option (FirewallAdapter Φ Ω)) (c : Channel Φ repr) :
    (∀ d : Delivery Ω,
      (∃ answer, (PacketProcessor.applyBackendCommand fw d.host d.command c.processor).1 =
          .ok answer) ↔ HarmlessTo fw c.processor d) ∧
    (∀ (ackEndpoint : String) (polls : List (List (Delivery Ω))),
      (∃ c', Channel.pollLoop fw ackEndpoint polls c = (.ok (), c') ∧
          Served fw (polled ackEndpoint polls) c c') ↔
        (commandMachine fw).Guarded (HarmlessTo fw) c.processor polls.flatten) ∧
    (∀ (catchupAckEndpointUrl : Option String) (conns : List (Connection Ω)),
      ((∀ r ∈ (Channel.connections fw catchupAckEndpointUrl).trace c conns, r = .ok ()) ∧
          Served fw (conns.flatMap (delivered catchupAckEndpointUrl)) c
            ((Channel.connections fw catchupAckEndpointUrl).exec c conns)) ↔
        (commandMachine fw).Guarded (HarmlessTo fw) c.processor
          ((conns.flatMap (delivered catchupAckEndpointUrl)).map Prod.fst)) := by
  refine ⟨fun d => ?_, fun ackEndpoint polls => ?_, fun url conns => ?_⟩
  · exact PacketProcessor.applyBackendCommand_returns_iff fw d.host c.processor d.command
  · exact pollLoop_served_iff fw ackEndpoint polls c
  · exact connections_served_iff fw url conns c

/-- An engine that was just started, on a platform without a firewall adapter. -/
def startedChannel : Channel Unit fun _ => "" where
  processor := .init () (.init 90 25) (.empty 10000 (by decide))
  acks := []
  pushedAcks := []

/-- A watchlist command. -/
def watchlistCommand (commandId : String) (duration : Json) : Delivery Unit where
  host := .frozen 1700000000 () lt_maxSeconds_1700000000
  command := [("command_id", .str commandId), ("action", .str "watchlist"),
    ("ip_address", .str "203.0.113.9"), ("duration_seconds", duration)]

/-- A duration that is no number ends the poll loop, although watchlisting does
not use it; the command behind it is not applied. -/
theorem unreadable_duration_stalls :
    ¬ ∀ polls : List (List (Delivery Unit)), ∃ c',
      Channel.pollLoop none "https://backend/ack" polls startedChannel = (.ok (), c') ∧
        Served none (polled "https://backend/ack" polls) startedChannel c' := by
  intro hclaim
  have hserved := hclaim [[watchlistCommand "c1" (.str "soon"), watchlistCommand "c2" (.int 60)]]
  have hguard := (pollLoop_served_iff none "https://backend/ack" _ startedChannel).mp hserved
  exact absurd hguard.1.duration (by decide +kernel)

end SmartIDS.PacketCapture
