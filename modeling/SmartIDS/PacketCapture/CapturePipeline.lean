import SmartIDS.Foundation.Effect
import SmartIDS.Foundation.Machine
import SmartIDS.PacketCapture.EngineTelemetry
import SmartIDS.Python.BoundedQueue
set_option autoImplicit false

/-!
# PacketCapture: the sniffer and the consumer

`LiveSniffer._handle_packet` and `SnifferService._consume_packets` run on two
threads, which share a bounded queue and the telemetry collector; a third
publishes snapshots.  The machine below takes one step of one thread at a time.
Every packet counted as received is processed, dropped, queued, or held by one of
the two threads, and what `process` is called with are the packets enqueued, in
the order of their capture.
-/

namespace SmartIDS.PacketCapture

open SmartIDS.Foundation SmartIDS.Python

/-! ## The threads -/

/-- Where in `_handle_packet` the sniffer is: the call it makes next. -/
inductive SnifferPhase (P : Type) where
  /-- the parser, on the next packet -/
  | ready
  /-- `record_packet_received` -/
  | parsed (packet : P)
  /-- `put_nowait` -/
  | counted (packet : P)
  /-- `record_packet_dropped` -/
  | refused (packet : P)
  /-- the health log, if it is due -/
  | enqueued (packet : P)

/-- Where in `_consume_packets` the consumer is. -/
inductive ConsumerPhase (P : Type) where
  /-- `get` -/
  | waiting
  /-- `process` -/
  | dequeued (packet : P)
  /-- `record_packet_processed`, at the end of `process` -/
  | processed (packet : P)
  /-- `process` has raised, which ends the loop -/
  | crashed (packet : P)

/-- The settings of the capture health log. -/
structure HealthLog where
  enabled : Bool
  interval : ℕ
  interval_pos : 1 ≤ interval

/-- One line of the capture health log. -/
structure CaptureHealth (P : Type) where
  seenPackets : ℕ
  packetQueueSize : ℕ
  packet : P

/-- The engine from the sniffer's callback to the processor. -/
structure CapturePipeline (P ρ : Type) where
  seenPackets : ℕ := 0
  sniffer : SnifferPhase P := .ready
  packetQueue : BoundedQueue P
  consumer : ConsumerPhase P := .waiting
  processor : ρ
  telemetry : EngineTelemetryCollector := {}

/-- The thread that takes the next step, and what the step meets. -/
inductive Turn (P W : Type) where
  /-- what the parser makes of the next packet, and the clock -/
  | sniffer (parsed : Option P) (now : Time)
  /-- what `process` meets -/
  | consumer (world : W)
  | telemetry (now : Time)

/-- What a step does that the other threads do not see. -/
inductive Happening (P W : Type) where
  | nothing
  | captured (packet : P)
  | put (packet : P) (accepted : Bool)
  | logged (health : CaptureHealth P)
  | called (world : W) (packet : P)
  | published (snapshot : TelemetrySnapshot)

namespace CapturePipeline

variable {P ρ W ε : Type}

def init (maxsize : ℕ) (processor : ρ) : CapturePipeline P ρ where
  packetQueue := .init maxsize
  processor := processor

/-- `_handle_packet`.  A packet that the parser makes nothing of is passed over. -/
def handlePacket (health : HealthLog) (parsed : Option P) (now : Time)
    (s : CapturePipeline P ρ) : CapturePipeline P ρ × Happening P W :=
  match s.sniffer with
  | .ready =>
    match parsed with
    | none => (s, .nothing)
    | some packet =>
      ({ s with sniffer := .parsed packet, seenPackets := s.seenPackets + 1 }, .captured packet)
  | .parsed packet =>
    ({ s with sniffer := .counted packet, telemetry := s.telemetry.recordPacketReceived now },
      .nothing)
  | .counted packet =>
    match s.packetQueue.putNowait packet with
    | none => ({ s with sniffer := .refused packet }, .put packet false)
    | some q => ({ s with sniffer := .enqueued packet, packetQueue := q }, .put packet true)
  | .refused _ =>
    ({ s with sniffer := .ready, telemetry := s.telemetry.recordPacketDropped now }, .nothing)
  | .enqueued packet =>
    ({ s with sniffer := .ready },
      if health.enabled && s.seenPackets % health.interval == 0 then
        .logged ⟨s.seenPackets, s.packetQueue.qsize, packet⟩
      else .nothing)

/-- `_consume_packets`.  The consumer waits while the queue is empty. -/
def consumePackets (process : W → P → Effect ε ρ Unit) (world : W) (s : CapturePipeline P ρ) :
    CapturePipeline P ρ × Happening P W :=
  match s.consumer with
  | .waiting =>
    match s.packetQueue.get with
    | none => (s, .nothing)
    | some (packet, q) => ({ s with consumer := .dequeued packet, packetQueue := q }, .nothing)
  | .dequeued packet =>
    match process world packet s.processor with
    | (.ok _, processor) =>
      ({ s with consumer := .processed packet, processor := processor }, .called world packet)
    | (.error _, processor) =>
      ({ s with consumer := .crashed packet, processor := processor }, .called world packet)
  | .processed _ =>
    ({ s with consumer := .waiting, telemetry := s.telemetry.recordPacketProcessed }, .nothing)
  | .crashed _ => (s, .nothing)

/-- The threads, interleaved. -/
def threads (health : HealthLog) (process : W → P → Effect ε ρ Unit) :
    Machine (CapturePipeline P ρ) (Turn P W) (Happening P W) where
  step s
    | .sniffer parsed now => s.handlePacket health parsed now
    | .consumer world => s.consumePackets process world
    | .telemetry now =>
      ({ s with telemetry := (s.telemetry.snapshot now).2 },
        .published (s.telemetry.snapshot now).1)

end CapturePipeline

/-! ## What is read off a run -/

namespace Happening

variable {P W : Type}

def captured? : Happening P W → Option P
  | .captured packet => some packet
  | _ => none

def verdict? : Happening P W → Option (P × Bool)
  | .put packet accepted => some (packet, accepted)
  | _ => none

def call? : Happening P W → Option (W × P)
  | .called world packet => some (world, packet)
  | _ => none

end Happening

section Reading

variable {P W : Type}

/-- The packets parsed, in the order of their capture. -/
def capturedOf (tr : List (Happening P W)) : List P := tr.filterMap Happening.captured?

/-- The packets put, and whether the queue had room. -/
def verdictsOf (tr : List (Happening P W)) : List (P × Bool) := tr.filterMap Happening.verdict?

/-- The packets enqueued. -/
def enqueuedOf (tr : List (Happening P W)) : List P :=
  ((verdictsOf tr).filter Prod.snd).map Prod.fst

/-- How many packets the queue refused. -/
def refusedOf (tr : List (Happening P W)) : ℕ := (verdictsOf tr).countP fun v => !v.2

/-- The calls of `process`. -/
def handedOf (tr : List (Happening P W)) : List (W × P) := tr.filterMap Happening.call?

end Reading

end SmartIDS.PacketCapture
