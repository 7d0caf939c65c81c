import SmartIDS.PacketCapture.PacketProcessor
import SmartIDS.ResponseEngine.BlockerSpec
set_option autoImplicit false

/-!
# PacketCapture: backend commands

`PacketProcessor.apply_backend_command` and the loops that feed it: one pass of
the poll loop of `sniffer_service.py`, the catch-up of `engine_ws_client.py` and
its handler for pushed frames.  None of the three guards a call with a `try`, so
they are written in the same monad as the call itself.

The backend is seen through what the engine sends it: the acknowledgements, in
order.
-/

namespace SmartIDS.PacketCapture

open SmartIDS.Foundation SmartIDS.Python SmartIDS.ResponseEngine

/-! ## The fields of a command -/

namespace BackendCommand

/-- `str(command.get(key, "")).strip()`. -/
def text (repr : Json → String) (command : JsonObject) (key : String) : String :=
  strip (str repr (command.getD key (.str "")))

def commandId (repr : Json → String) (command : JsonObject) : String :=
  text repr command "command_id"

def action (repr : Json → String) (command : JsonObject) : String :=
  lower (text repr command "action")

def ipAddress (repr : Json → String) (command : JsonObject) : String :=
  text repr command "ip_address"

/-- `int(command.get("duration_seconds", 300) or 300)`. -/
def durationSeconds (command : JsonObject) : Except PyError ℤ :=
  let value := command.getD "duration_seconds" (.int 300)
  (if value.truthy then value else .int 300).toInt

theorem strip_commandId (repr : Json → String) (command : JsonObject) :
    strip (commandId repr command) = commandId repr command :=
  strip_strip _

end BackendCommand

open BackendCommand

namespace PacketProcessor

variable {Φ Ω : Type} {repr : Json → String}

/-! ## Applying a command -/

/-- The call of the blocker an action stands for. -/
def blockerCall (fw : Option (FirewallAdapter Φ Ω)) (h : Host Ω) (action ip : String)
    (duration : ℤ) : Option (Effect PyError (AutoBlocker Φ) (Bool × String)) :=
  if action = "block" then some (AutoBlocker.manualBlock fw h ip (max 1 duration))
  else if action = "unblock" then some (Effect.state (AutoBlocker.manualUnblock fw h ip))
  else if action = "watchlist" then some (Effect.state (AutoBlocker.watchlistIp h ip))
  else if action = "unwatchlist" then some (Effect.state (AutoBlocker.unwatchlistIp h ip))
  else none

/-- `mapped_action`. -/
def mappedAction (action : String) : String :=
  if action = "unblock" then "unblocked"
  else if action = "watchlist" then "watchlisted"
  else if action = "unwatchlist" then "unwatchlisted"
  else "blocked"

/-- The block event of a command that took effect. -/
def commandBlockEvent (h : Host Ω) (commandId action ip : String) : BlockEvent where
  eventId := if commandId ≠ "" then s!"cmd-{commandId}" else s!"cmd-{ip}-{action}"
  timestamp := h.clock.publishTime
  sourceIp := ip
  actionTaken := mappedAction action
  reason := s!"manual_{action}"
  detectionMethod := "manual"
  sessionId := none
  sourcePort := none
  destinationIp := none
  destinationPort := none
  protocol := none

/-- What follows a successful call: the id is stored and the event published. -/
def commit (h : Host Ω) (commandId action ip : String) (p : PacketProcessor Φ repr) :
    PacketProcessor Φ repr :=
  let p :=
    if commandId ≠ "" then
      { p with processedCommandStore := p.processedCommandStore.add commandId }
    else p
  publishBlockEvent (commandBlockEvent h commandId action ip) p

/-- `apply_backend_command` past the duplicate check. -/
def attempt (fw : Option (FirewallAdapter Φ Ω)) (h : Host Ω) (commandId action ip : String)
    (duration : ℤ) : Action Φ repr (Bool × String) :=
  match blockerCall fw h action ip duration with
  | none => return (false, "unsupported_action")
  | some call => do
    let answer ← onBlocker call
    if answer.1 then
      Effect.modify (commit h commandId action ip)
    return answer

/-- `apply_backend_command`. -/
def applyBackendCommand (fw : Option (FirewallAdapter Φ Ω)) (h : Host Ω) (command : JsonObject) :
    Action Φ repr (Bool × String) := do
  let commandId := commandId repr command
  let action := action repr command
  let ip := ipAddress repr command
  let duration ← Effect.ofExcept (durationSeconds command)
  if action = "" ∨ ip = "" then
    return (false, "invalid_command")
  let p ← Effect.get
  if commandId ≠ "" ∧ p.processedCommandStore.contains commandId = true then
    return (true, "duplicate_command")
  attempt fw h commandId action ip duration

end PacketProcessor

/-! ## The loops that deliver commands -/

/-- One acknowledgement: `{"command_id": …, "status": …}`. -/
structure Ack where
  commandId : String
  status : String
  deriving DecidableEq, Repr

/-- The engine and what it has sent to the backend: the acknowledgements over
REST, and those handed to the publisher of the WebSocket client. -/
structure Channel (Φ : Type) (repr : Json → String) where
  processor : PacketProcessor Φ repr
  acks : List Ack
  pushedAcks : List Ack

/-- A command as it is delivered, with the host its application runs on. -/
structure Delivery (Ω : Type) where
  host : Host Ω
  command : JsonObject

namespace Channel

variable {Φ Ω : Type} {repr : Json → String}

/-- Call `apply_backend_command`. -/
def applyCommand (fw : Option (FirewallAdapter Φ Ω)) (d : Delivery Ω) :
    Effect PyError (Channel Φ repr) (Bool × String) :=
  Effect.zoom processor (fun p c => { c with processor := p })
    (PacketProcessor.applyBackendCommand fw d.host d.command)

/-- The status an answer is acknowledged with. -/
def ackStatus (answer : Bool × String) : String :=
  if answer.1 then answer.2 else s!"error:{answer.2}"

/-- `ack_command`, for a command with an id that is not blank. -/
def ackCommand (command : JsonObject) (answer : Bool × String) (c : Channel Φ repr) :
    Channel Φ repr :=
  let id := commandId repr command
  if id = "" then c else { c with acks := c.acks ++ [⟨id, ackStatus answer⟩] }

/-- One turn of the inner loop of `_poll_backend_commands`. -/
def pollCommand (fw : Option (FirewallAdapter Φ Ω)) (ackEndpoint : String) (d : Delivery Ω) :
    Effect PyError (Channel Φ repr) Unit := do
  let answer ← applyCommand fw d
  if ackEndpoint ≠ "" then
    Effect.modify (ackCommand d.command answer)

/-- One turn of the outer loop of `_poll_backend_commands`, over the commands
`poll_commands` returned. -/
def pollBackendCommands (fw : Option (FirewallAdapter Φ Ω)) (ackEndpoint : String)
    (commands : List (Delivery Ω)) : Effect PyError (Channel Φ repr) Unit :=
  commands.forM (pollCommand fw ackEndpoint)

/-- `_apply_and_ack_via_rest`. -/
def applyAndAckViaRest (fw : Option (FirewallAdapter Φ Ω)) (catchupAckEndpointUrl : Option String)
    (d : Delivery Ω) : Effect PyError (Channel Φ repr) Unit := do
  let answer ← applyCommand fw d
  if catchupAckEndpointUrl ≠ none then
    Effect.modify (ackCommand d.command answer)

/-- `_run_catchup`, over the commands `poll_commands` returned. -/
def runCatchup (fw : Option (FirewallAdapter Φ Ω)) (catchupAckEndpointUrl : Option String)
    (commands : List (Delivery Ω)) : Effect PyError (Channel Φ repr) Unit :=
  commands.forM (applyAndAckViaRest fw catchupAckEndpointUrl)

/-- `_handle_command`; `submitted` is whether the publisher had room. -/
def handleCommand (fw : Option (FirewallAdapter Φ Ω)) (submitted : Bool) (d : Delivery Ω) :
    Effect PyError (Channel Φ repr) Unit := do
  let answer ← applyCommand fw d
  let id := commandId repr d.command
  if id ≠ "" ∧ submitted = true then
    Effect.modify fun c => { c with pushedAcks := c.pushedAcks ++ [⟨id, ackStatus answer⟩] }

/-- `_poll_backend_commands`, for as many turns as there are polls.  An exception
ends the thread. -/
def pollLoop (fw : Option (FirewallAdapter Φ Ω)) (ackEndpoint : String)
    (polls : List (List (Delivery Ω))) : Effect PyError (Channel Φ repr) Unit :=
  polls.forM (pollBackendCommands fw ackEndpoint)

end Channel

/-- What one authenticated connection of the WebSocket client delivers: the
catch-up, then the pushed frames, each with whether its acknowledgement found
room in the publisher's queue. -/
structure Connection (Ω : Type) where
  catchup : List (Delivery Ω)
  pushed : List (Delivery Ω × Bool)

namespace Channel

variable {Φ Ω : Type} {repr : Json → String}

/-- `_run_connection` past the authentication. -/
def runConnection (fw : Option (FirewallAdapter Φ Ω)) (catchupAckEndpointUrl : Option String)
    (connection : Connection Ω) : Effect PyError (Channel Φ repr) Unit := do
  runCatchup fw catchupAckEndpointUrl connection.catchup
  connection.pushed.forM fun frame => handleCommand fw frame.2 frame.1

/-- The connections `_connect_loop` makes.  An exception ends the connection;
the loop catches it and makes the next one. -/
def connections (fw : Option (FirewallAdapter Φ Ω)) (catchupAckEndpointUrl : Option String) :
    Machine (Channel Φ repr) (Connection Ω) (Except PyError Unit) where
  step c connection :=
    ((runConnection fw catchupAckEndpointUrl connection c).2,
      (runConnection fw catchupAckEndpointUrl connection c).1)

end Channel

end SmartIDS.PacketCapture
